import GatewayPlan.Parameter.Catalog
import GatewayPlan.Parameter.Dedupe

/-!
# Route templates

A route template is text cut at slashes. A segment with a brace at either end is a placeholder and
names a path parameter; anything else, half-braced text included, stands for itself.
-/

namespace GatewayPlan.Template

/-- The pieces of a text between slashes. -/
def pieces : List Char → List (List Char)
  | [] => [[]]
  | c :: rest => if c = '/' then [] :: pieces rest else (pieces rest).modifyHead (c :: ·)

theorem pieces_ne_nil (cs : List Char) : pieces cs ≠ [] := by
  induction cs with
  | nil => simp [pieces]
  | cons c rest ih =>
    rw [pieces]
    split
    · simp
    · cases h : pieces rest <;> simp_all

theorem pieces_append (a b : List Char) : pieces (a ++ '/' :: b) = pieces a ++ pieces b := by
  induction a with
  | nil => simp [pieces]
  | cons c rest ih =>
    simp only [List.cons_append, pieces, ih]
    split
    · rfl
    · cases h : pieces rest with
      | nil => exact absurd h (pieces_ne_nil rest)
      | cons p ps => simp

def segments (template : String) : List (List Char) :=
  (pieces template.toList).filter fun s => !s.isEmpty

/-- The text between the braces of a placeholder. -/
def inner? : List Char → Option (List Char)
  | '{' :: rest => if rest.getLast? = some '}' then some rest.dropLast else none
  | _ => none

/-- The placeholders of a template: each segment with its inner text. -/
def placeholders (template : String) : List (List Char × List Char) :=
  (segments template).filterMap fun s => (inner? s).map (s, ·)

inductive Flaw where
  | braces
  | empty
  | padding
  deriving DecidableEq, Repr

def Flaw.reason : Flaw → String
  | braces => "has unbalanced braces"
  | empty => "is an empty placeholder"
  | padding => "has whitespace around the placeholder name"

def isBrace (c : Char) : Bool :=
  c = '{' || c = '}'

/-- What keeps the inner text of a placeholder from being a name. -/
def flaw? (name : List Char) : Option Flaw :=
  if name.any isBrace then some .braces
  else if name.all Text.isSpace then some .empty
  else if Text.isPadded name then some .padding
  else none

theorem not_blank_of_flaw?_eq_none {name : List Char} (h : flaw? name = none) :
    Text.isBlank (String.ofList name) = false := by
  unfold flaw? at h
  split at h
  · simp at h
  · split at h
    · simp at h
    · simpa [Text.isBlank] using ‹¬name.all Text.isSpace = true›

def parameter (template : String) (placeholder : List Char × List Char) :
    Except Error Parameter :=
  match h : flaw? placeholder.2 with
  | some flaw =>
    .error (.malformedTemplate template (String.ofList placeholder.1) flaw.reason)
  | none => .ok ⟨.path, String.ofList placeholder.2, true, not_blank_of_flaw?_eq_none h⟩

/-- The required path parameters that a template names, left to right. -/
def pathParameters (template : String) : Except Error (List Parameter) :=
  (placeholders template).mapM (parameter template)

/-- Declared parameters with those of the template after them, repeats dropped. -/
def merge (template : String) (declared : List Parameter) : Logged (List Parameter) := do
  let fromTemplate ← .quiet (pathParameters template)
  Parameter.sifted (declared ++ fromTemplate)

/-- Starts at the root. -/
def isRooted (path : String) : Bool :=
  path.toList.head? = some '/'

def trimSlashes (s : String) : String :=
  String.ofList (s.toList.reverse.dropWhile (· = '/')).reverse

/-- The path with `root` before it, a slash in front and none doubled. -/
def join (root path : String) : String :=
  let trimmed := trimSlashes root
  if trimmed = "" then path
  else if isRooted trimmed then trimmed ++ path
  else "/" ++ trimmed ++ path

end GatewayPlan.Template
