/-!
The choices that a Markdown writer has: characters that mean the same to a reader.
-/
namespace PageExport.Markdown

inductive Bullet where
  | dash | star | plus
  deriving DecidableEq, Repr, Inhabited

def Bullet.char : Bullet → Char
  | .dash => '-'
  | .star => '*'
  | .plus => '+'

def Bullet.all : List Bullet := [.dash, .star, .plus]

/-- The mark of a bullet list right after another one. -/
def Bullet.other : Bullet → Bullet
  | .star => .dash
  | _ => .star

theorem Bullet.other_ne (b : Bullet) : b.other ≠ b := by cases b <;> decide

inductive EmphasisMark where
  | underscore | star
  deriving DecidableEq, Repr, Inhabited

def EmphasisMark.char : EmphasisMark → Char
  | .underscore => '_'
  | .star => '*'

def EmphasisMark.all : List EmphasisMark := [.underscore, .star]

inductive Rule where
  | dashes | stars | underscores
  deriving DecidableEq, Repr, Inhabited

def Rule.char : Rule → Char
  | .dashes => '-'
  | .stars => '*'
  | .underscores => '_'

def Rule.text (r : Rule) : List Char := List.replicate 3 r.char

def Rule.all : List Rule := [.dashes, .stars, .underscores]

structure Options where
  bullet : Bullet := .dash
  emphasis : EmphasisMark := .underscore
  rule : Rule := .dashes
  deriving DecidableEq, Repr, Inhabited

end PageExport.Markdown
