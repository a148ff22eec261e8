import PageExport.Text.Quoted

/-!
What the fields of a template can name: the text of the argument, a character of it, the operations on
texts and the kinds that things are of. Only texts can be laid out.
-/
namespace PageExport.Template

/-- The kinds of things that fields can name. -/
inductive Kind where
  | text | kind | row | anything | nothing | operation | operator
  deriving DecidableEq, Repr

namespace Kind

def name : Kind → String
  | .text => "str"
  | .kind => "type"
  | .row => "tuple"
  | .anything => "object"
  | .nothing => "NoneType"
  | .operation => "builtin_function_or_method"
  | .operator => "method-wrapper"

def shown (k : Kind) : Text := "<class '".toList ++ k.name.toList ++ "'>".toList

/-- The kinds that a kind is a case of. -/
def above (k : Kind) : List Kind := if k = .anything then [] else [.anything]

end Kind

/-- What a field stands for. -/
inductive Subject where
  | text (t : Text)
  | kind (k : Kind)
  | row (ks : List Kind)
  | nothing
  /-- An operation on the text `t`, or one that is written with an operator. -/
  | operation (name : String) (t : Text)
  | operator (name : String) (t : Text)
  deriving DecidableEq, Repr

def operations : List String := [
  "capitalize", "casefold", "center", "count", "encode", "endswith", "expandtabs", "find", "format",
  "format_map", "index", "isalnum", "isalpha", "isascii", "isdecimal", "isdigit", "isidentifier",
  "islower", "isnumeric", "isprintable", "isspace", "istitle", "isupper", "join", "ljust", "lower",
  "lstrip", "maketrans", "partition", "removeprefix", "removesuffix", "replace", "rfind", "rindex",
  "rjust", "rpartition", "rsplit", "rstrip", "split", "splitlines", "startswith", "strip", "swapcase",
  "title", "translate", "upper", "zfill", "__dir__", "__format__", "__getnewargs__", "__getstate__",
  "__init_subclass__", "__new__", "__reduce__", "__reduce_ex__", "__sizeof__", "__subclasshook__"]

/-- The names of operations on texts that are written with operators. -/
def operators : List String := [
  "__add__", "__contains__", "__delattr__", "__eq__", "__ge__", "__getattribute__", "__getitem__",
  "__gt__", "__hash__", "__init__", "__iter__", "__le__", "__len__", "__lt__", "__mod__", "__mul__",
  "__ne__", "__repr__", "__rmod__", "__rmul__", "__setattr__", "__str__"]

/-- What the kind of texts says of itself. -/
def textSummary : String :=
  "str(object='') -> str\nstr(bytes_or_buffer[, encoding[, errors]]) -> str\n\n"
    ++ "Create a new string object from the given object. If encoding or\n"
    ++ "errors is specified, then the object must expose a data buffer\n"
    ++ "that will be decoded using the given encoding and error handler.\n"
    ++ "Otherwise, returns the result of object.__str__() (if defined)\nor repr(object).\n"
    ++ "encoding defaults to sys.getdefaultencoding().\nerrors defaults to 'strict'."

namespace Subject

def ofString (s : String) : Subject := .text s.toList

def kindOf : Subject → Kind
  | .text _ => .text
  | .kind _ => .kind
  | .row _ => .row
  | .nothing => .nothing
  | .operation _ _ => .operation
  | .operator _ _ => .operator

/-- Kinds in parentheses; one alone has a comma after it. -/
def rowText (ks : List Kind) : Text :=
  let body := Text.join [',', ' '] (ks.map Kind.shown)
  '(' :: body ++ (if ks.length = 1 then [','] else []) ++ [')']

def shown : Subject → Text
  | .text t => t
  | .kind k => k.shown
  | .row ks => rowText ks
  | .nothing => "None".toList
  | .operation name _ => "<built-in method ".toList ++ name.toList ++ " of str object>".toList
  | .operator name _ => "<method-wrapper '".toList ++ name.toList ++ "' of str object>".toList

/-- The text that shows a subject, quoted if it is a text. -/
def quoted : Subject → Text
  | .text t => t.quoted
  | s => s.shown

def ofText? (name : String) (t : Text) : Option Subject :=
  if name = "__doc__" then some (ofString textSummary)
  else if operations.contains name then some (.operation name t)
  else if operators.contains name then some (.operator name t)
  else none

def ofKind? (name : String) (k : Kind) : Option Subject :=
  if name = "__name__" || name = "__qualname__" then some (ofString k.name)
  else if name = "__module__" then some (ofString "builtins")
  else if name = "__mro__" then some (.row (k :: k.above))
  else if name = "__bases__" then some (.row k.above)
  else if name = "__base__" then some ((k.above.head?.map Subject.kind).getD .nothing)
  else if name = "__doc__" && k = .text then some (ofString textSummary)
  else none

/-- An attribute of the operation `operation` on a text. -/
def ofOperation? (name operation : String) (t : Text) : Option Subject :=
  if name = "__name__" then some (ofString operation)
  else if name = "__qualname__" then some (ofString ("str." ++ operation))
  else if name = "__self__" then some (.text t)
  else none

/-- The attribute `name` of a subject, if it has one. -/
def attribute? (name : String) (s : Subject) : Option Subject :=
  if name = "__class__" then some (.kind s.kindOf)
  else match s with
    | .text t => ofText? name t
    | .kind k => ofKind? name k
    | .operation o t => if name = "__module__" then some .nothing else ofOperation? name o t
    | .operator o t => ofOperation? name o t
    | .row _ | .nothing => none

/-- The parts of a subject that has parts. -/
def parts? : Subject → Option (List Subject)
  | .text t => some (t.map fun c => .text [c])
  | .row ks => some (ks.map .kind)
  | _ => none

end Subject
end PageExport.Template
