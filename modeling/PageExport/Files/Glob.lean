import PageExport.Text.Basic

/-!
Name patterns: a star stands for any text, a question mark for any character, a class in square
brackets for one of its members or, after an exclamation mark, for any other character.
-/
namespace PageExport.Glob

/-- A member of a class: a character or a range of characters. -/
inductive Member where
  | char (c : Char)
  | range (first last : Char)
  deriving DecidableEq, Repr

inductive Part where
  | char (c : Char)
  | any
  | anyText
  | oneOf (members : List Member)
  | noneOf (members : List Member)
  deriving DecidableEq, Repr

abbrev Pattern := List Part

/-- Members from left to right: a character with a hyphen and a further character is a range. -/
def readMembers : Text → List Member
  | a :: '-' :: b :: t => .range a b :: readMembers t
  | a :: t => .char a :: readMembers t
  | [] => []

def Member.isEmpty : Member → Bool
  | .char _ => false
  | .range a b => b < a

/-- A class from the text between its brackets. An exclamation mark negates it that comes first once
the empty ranges are dropped. -/
def readClass (t : Text) : Part :=
  let members : List Member := match t with
    | '!' :: rest => .char '!' :: readMembers rest
    | t => readMembers t
  match members.filter fun m => !m.isEmpty with
  | .char '!' :: rest => .noneOf rest
  | .range '!' b :: rest => .noneOf (.char '-' :: .char b :: rest)
  | members => .oneOf members

/-- The text of a class after its opening bracket, and the rest. A closing bracket in the first place
is a member. -/
def splitClass (t : Text) : Option (Text × Text) :=
  let (start, t) := match t with
    | '!' :: ']' :: rest => (['!', ']'], rest)
    | '!' :: rest => (['!'], rest)
    | ']' :: rest => ([']'], rest)
    | t => ([], t)
  match t.dropWhile (· ≠ ']') with
  | _ :: rest => some (start ++ t.takeWhile (· ≠ ']'), rest)
  | [] => none

/-- Reads a pattern of at most `fuel` characters; a bracket that opens no class stands for itself. -/
def readFrom (fuel : Nat) (t : Text) : Pattern :=
  match fuel, t with
  | 0, _ | _, [] => []
  | fuel + 1, '*' :: t => .anyText :: readFrom fuel t
  | fuel + 1, '?' :: t => .any :: readFrom fuel t
  | fuel + 1, '[' :: t =>
    match splitClass t with
    | some (body, rest) => readClass body :: readFrom fuel rest
    | none => .char '[' :: readFrom fuel t
  | fuel + 1, c :: t => .char c :: readFrom fuel t

def read (t : Text) : Pattern := readFrom t.length t

def Member.admits (c : Char) : Member → Bool
  | .char d => c = d
  | .range a b => a ≤ c && c ≤ b

/-- The part stands for the character. -/
def Part.admits (c : Char) : Part → Bool
  | .char d => c = d
  | .any | .anyText => true
  | .oneOf ms => ms.any (·.admits c)
  | .noneOf ms => !ms.any (·.admits c)

/-- Each answer or any later one. -/
def orLater : List Bool → List Bool :=
  List.foldr (fun b later => (b || later.headD false) :: later) []

/-- Whether the pattern stands for each ending of the name, from the whole name to the empty one. -/
def endings : Pattern → Text → List Bool
  | [], t => t.map (fun _ => false) ++ [true]
  | .anyText :: ps, t => orLater (endings ps t)
  | p :: ps, t => List.zipWith (fun c b => p.admits c && b) t (endings ps t).tail ++ [false]

def admits (ps : Pattern) (t : Text) : Bool := (endings ps t).headD false

theorem endings_ne_nil (ps : Pattern) (t : Text) : endings ps t ≠ [] := by
  induction ps with
  | nil => simp [endings]
  | cons p ps ih =>
    obtain ⟨b, bs, h⟩ := List.exists_cons_of_ne_nil ih
    cases p <;> simp [endings, h, orLater]

theorem endings_cons (ps : Pattern) (c : Char) (t : Text) :
    endings ps (c :: t) = admits ps (c :: t) :: endings ps t := by
  induction ps with
  | nil => rfl
  | cons p ps ih =>
    obtain ⟨b, bs, hb⟩ := List.exists_cons_of_ne_nil (endings_ne_nil ps t)
    have h : endings (p :: ps) (c :: t) = (endings (p :: ps) (c :: t)).headD false
        :: endings (p :: ps) t := by
      generalize admits ps (c :: t) = b at ih
      cases p <;> simp [endings, ih, hb, orLater]
    exact h

theorem admits_nil (t : Text) : admits [] t = t.isEmpty := by cases t <;> rfl

theorem admits_anyText_cons (ps : Pattern) (c : Char) (t : Text) :
    admits (.anyText :: ps) (c :: t) = (admits ps (c :: t) || admits (.anyText :: ps) t) := by
  rw [admits, endings, endings_cons]
  rfl

/-- Two stars in a row, which have no meaning inside a name. -/
def hasDoubleStar : Text → Bool
  | '*' :: '*' :: _ => true
  | _ :: t => hasDoubleStar t
  | [] => false

end PageExport.Glob
