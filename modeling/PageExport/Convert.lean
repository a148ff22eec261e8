import PageExport.Asset.Store
import PageExport.Settings.Basic
import PageExport.Slug
import PageExport.Snapshot.Load

/-!
Conversion of snapshot files: each of them becomes a Markdown file, named by the title of its page,
with the assets that the page refers to beside it. A fault ends the conversion and leaves the files
that were written before.
-/
namespace PageExport

inductive ConvertFault where
  | load (fault : LoadFault)
  | page (fault : PageFault)
  | template (fault : TemplateFault)
  | store (fault : StoreFault)
  | file (error : FileError)
  /-- A text has no form in UTF-8. -/
  | notEncodable
  deriving DecidableEq, Repr

structure ConvertState where
  files : FileTree
  assets : Option AssetDirectory := none
  taken : List Text := []
  log : Log := []

abbrev Convert := EStateM ConvertFault ConvertState

/-- A file that was converted: where from, where to, and with how many assets. -/
structure Converted where
  source : Path
  markdown : Path
  assets : Nat
  deriving DecidableEq, Repr

namespace Convert

def logged {α : Type} (x : Logged α) : Convert α := fun s =>
  .ok x.value { s with log := s.log ++ x.log }

def ofExcept {ε α : Type} (f : ε → ConvertFault) (x : Except ε α) : Convert α := fun s =>
  match x with
  | .ok a => .ok a s
  | .error e => .error (f e) s

/-- The block tree in a file, without its blank start if the settings drop it. -/
def loadTrimmed (settings : Settings) (p : Path) : Convert Block := do
  let b ← ofExcept .load (Block.load (← get).files p)
  if settings.skipEmpty then logged b.trim else return b

/-- Keeps the assets of references as they are now. -/
def rememberAll (refs : List String) : Convert Unit :=
  modify fun s =>
    { s with assets := s.assets.map fun d => refs.foldl (fun d ref => d.remember s.files ref) d }

/-- The page of a block tree in the profile of the settings. -/
def page (settings : Settings) (b : Block) : Convert Page := do
  match settings.profile with
  | .legacy =>
    ofExcept .template (← logged (Legacy.toPage settings.template settings.options b))
  | .tree =>
    let s ← get
    let resolver := s.assets.map fun d => d.resolve s.files
    let page ← ofExcept .page (← logged (b.toPage resolver settings.options))
    rememberAll page.assetIds
    return page

/-- The stem of the file that a page goes to: the slug of its title, or else of the name of its
file, or else its id. -/
def stem (p : Path) (b : Block) (title : Text) : Text :=
  let ofTitle := Slug.ofTitle title
  let ofName := Slug.ofTitle p.stem
  if !ofTitle.isEmpty then ofTitle else if !ofName.isEmpty then ofName else b.id.toList

/-- The page of a snapshot file and the stem of its name. -/
def file (settings : Settings) (p : Path) : Convert (Text × Page) := do
  let b ← loadTrimmed settings p
  let page ← page settings b
  let title ← logged b.title
  return (stem p b title, page)

/-- A stem that no file was given before. -/
def freshStem (stem : Text) : Convert Text := fun s =>
  let fresh := Slug.unique s.taken stem
  .ok fresh { s with taken := s.taken ++ [fresh] }

/-- A step on the files that leaves them as they are if it fails. -/
def onFiles (f : FileTree → Except FileError FileTree) : Convert Unit := fun s =>
  match f s.files with
  | .ok t => .ok () { s with files := t }
  | .error e => .error (.file e) s

/-- Writes a text in UTF-8. The file is there, and empty, if the text has no such form. -/
def write (p : Path) (text : String) : Convert Unit := do
  if Unicode.isEncodable text.toList then onFiles (·.write p text.toUTF8)
  else
    onFiles (·.write p .empty)
    ofExcept id (.error .notEncodable)

/-- Copies the assets of references, if there is a directory of assets, and answers their number. -/
def storeAssets (refs : List String) (dest : Path) : Convert Nat := fun s =>
  match s.assets with
  | none => .ok 0 s
  | some d =>
    match Asset.storeAll AssetDirectory.answer refs dest ⟨s.files, d, s.log⟩ with
    | .ok paths t => .ok paths.length { s with files := t.files, assets := some t.source, log := t.log }
    | .error e t =>
      .error (.store e) { s with files := t.files, assets := some t.source, log := t.log }

def one (settings : Settings) (dest p : Path) : Convert Converted := do
  let (stem, page) ← file settings p
  let fresh ← freshStem stem
  let target := dest.child (String.ofList fresh ++ ".md")
  write target page.markdown
  let assets ← storeAssets page.assetIds dest
  logged (.note .info (p.toString ++ " -> " ++ target.toString ++ " ("
    ++ String.ofList (Text.ofNat assets) ++ " asset(s))"))
  return ⟨p, target, assets⟩

def each (settings : Settings) (dest : Path) : List Path → Convert (List Converted)
  | [] => return []
  | p :: ps => do
    let c ← one settings dest p
    return c :: (← each settings dest ps)

def all (settings : Settings) (p : Path) : Convert (List Converted) := do
  let dest := Path.ofString settings.outputDir
  onFiles (·.makeDirectories dest)
  each settings dest (← ofExcept .file ((← get).files.snapshots p))

end Convert

/-- The directory of assets in the settings, unless its name is empty. -/
def Settings.assetDirectory? (s : Settings) : Option AssetDirectory :=
  match s.assetsDir with
  | some name => if name.isEmpty then none else some { root := Path.ofString name }
  | none => none

def ConvertState.start (settings : Settings) (files : FileTree) : ConvertState :=
  { files := files, assets := settings.assetDirectory? }

end PageExport
