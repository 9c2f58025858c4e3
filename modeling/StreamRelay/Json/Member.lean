import StreamRelay.Json.Value

/-!
# Members of objects

An object as a finite map: of members with equal keys the last one counts.
-/

namespace StreamRelay.Json.Value

/-- The members without those that a later one with the same key overrides. -/
def lastMembers : List (String × Value) → List (String × Value)
  | [] => []
  | m :: ms => if ms.any (·.1 = m.1) then lastMembers ms else m :: lastMembers ms

mutual

def distinct : Value → Value
  | .list items => .list (distinctItems items)
  | .object members => .object (lastMembers (distinctMembers members))
  | v => v

def distinctItems : List Value → List Value
  | [] => []
  | v :: vs => v.distinct :: distinctItems vs

def distinctMembers : List (String × Value) → List (String × Value)
  | [] => []
  | (k, v) :: ms => (k, v.distinct) :: distinctMembers ms

end

def members : Value → List (String × Value)
  | .object ms => ms
  | _ => []

def get (v : Value) (key : String) : Value := ((lastMembers v.members).lookup key).getD .null

def set (v : Value) (key : String) (new : Value) : Value :=
  .object (v.members.filter (·.1 ≠ key) ++ [(key, new)])

def setDefault (v : Value) (key : String) (new : Value) : Value :=
  match v.get key with
  | .null => v.set key new
  | _ => v

end StreamRelay.Json.Value
