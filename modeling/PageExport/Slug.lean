import PageExport.Text.Blank
import PageExport.Unicode.Alphanumeric
import PageExport.Unicode.AsciiFold
import PageExport.Unicode.Lowercase

/-!
Slugs: file stems made from titles. A slug has words in lower case with single hyphens between
them; a slug that is taken gets the first free number from two on.
-/
namespace PageExport.Slug

def maxLength : Nat := 80

/-- White space, underscores and hyphens separate words. -/
def isSeparator (c : Char) : Bool := isBlank c || c = '_' || c = '-'

/-- Characters that are neither part of a word nor a separator are dropped. -/
def isKept (c : Char) : Bool := Unicode.isAlphanumeric c || isSeparator c

/-- A hyphen for each run of separators; `inRun` after a separator. -/
def collapse (inRun : Bool) : Text → Text
  | [] => []
  | c :: cs =>
    if isSeparator c then (if inRun then collapse true cs else '-' :: collapse true cs)
    else c :: collapse false cs

def trimHyphens (t : Text) : Text :=
  ((t.dropWhile (· = '-')).reverse.dropWhile (· = '-')).reverse

/-- What precedes the last hyphen. -/
def beforeLastHyphen (t : Text) : Text := ((t.reverse.dropWhile (· ≠ '-')).drop 1).reverse

/-- A text that is too long is cut, at the last hyphen that is left if there is one. -/
def shorten (t : Text) : Text :=
  if t.length ≤ maxLength then t
  else
    let head := t.take maxLength
    if head.contains '-' then beforeLastHyphen head else head

/-- The slug of a title: accents are folded, letters lowered, separators collapsed. -/
def ofTitle (title : Text) : Text :=
  let folded := Unicode.lowercase (title.flatMap Unicode.asciiFold)
  shorten (trimHyphens (collapse false (folded.filter isKept)))

/-- The candidates for a slug: the slug itself, then the slug with a number. -/
def numbered (slug : Text) (n : Nat) : Text :=
  if n ≤ 1 then slug else slug ++ '-' :: Text.ofNat n

/-- The first candidate from number `n` on that is not taken. Candidates differ, so one that is taken
need not be looked for again. -/
def firstFree (slug : Text) (n : Nat) (taken : List Text) : Text :=
  if h : numbered slug n ∈ taken then firstFree slug (n + 1) (taken.erase (numbered slug n))
  else numbered slug n
termination_by taken.length
decreasing_by
  rw [List.length_erase_of_mem h]
  exact Nat.sub_one_lt (Nat.ne_of_gt (List.length_pos_of_mem h))

def unique (taken : List Text) (slug : Text) : Text := firstFree slug 1 taken

end PageExport.Slug
