import GatewayPlan.Logged

/-!
# Making parameters

The one place where a name from outside is checked, and the parameters every route knows.
-/

namespace GatewayPlan.Parameter

def named (kind : ParameterKind) (name : String) (required : Bool) : Except Error Parameter :=
  if h : Text.isBlank name = false then .ok ⟨kind, name, required, h⟩
  else .error (.invalidName name)

theorem named_eq_ok {kind : ParameterKind} {name : String} {required : Bool}
    (h : Text.isBlank name = false) :
    named kind name required = .ok ⟨kind, name, required, h⟩ := by
  simp [named, h]

def query (name : String) : Except Error Parameter := named .query name true

def multiValueQuery (name : String) : Except Error Parameter := named .multiValueQuery name true

def path (name : String) : Except Error Parameter := named .path name true

def header (name : String) : Except Error Parameter := named .header name true

def context (name : String) : Except Error Parameter := named .context name true

/-- Whom the authorizer recognized. -/
def principal : Parameter := ⟨.context, "principalId", true, by decide +kernel⟩

def username : Parameter := ⟨.context, "username", true, by decide +kernel⟩

def permissions : Parameter := ⟨.context, "permissions", false, by decide +kernel⟩

def deliverer : Parameter := ⟨.context, "delivererId", false, by decide +kernel⟩

/-- Required parameters of each kind, in the order the command line lists the kinds. -/
def declared (queries multis headers contexts : List String) : Except Error (List Parameter) := do
  let qs ← queries.mapM query
  let ms ← multis.mapM multiValueQuery
  let hs ← headers.mapM header
  let cs ← contexts.mapM context
  pure (qs ++ ms ++ hs ++ cs)

/-- Relaxes the parameters that have one of the given names, or gives the first name that no
parameter has. -/
def relaxNamed (ps : List Parameter) (names : List String) : Except String (List Parameter) :=
  match names.find? fun name => !ps.any (·.name = name) with
  | some unknown => .error unknown
  | none => .ok (ps.map fun p => if p.name ∈ names then p.relaxed else p)

end GatewayPlan.Parameter
