import Decommission.Json.Token
import Decommission.Json.Value

/-!
Reading a JSON document. The tokens are taken one by one, and the containers that are still open are
kept on a stack, so a document may be nested to any depth.
-/
namespace Decommission.Json

/-- An open container that waits for the value after what it already holds, newest first. -/
inductive Waiting where
  | array (items : List Json)
  | object (members : List (Option String × Json)) (key : Option String)

/-- What may come next. `fresh` holds right after an opening bracket, when it may close again. -/
inductive Reading where
  | value (stack : List Waiting) (fresh : Bool)
  | key (stack : List Waiting) (members : List (Option String × Json)) (fresh : Bool)
  | colon (stack : List Waiting) (members : List (Option String × Json)) (key : Option String)
  | after (stack : List Waiting) (value : Json)

/-- What may come after the token; `none` when the token may not stand here. -/
def Reading.step : Reading → Token → Option Reading
  | .value stack _, .openArray => some (.value (.array [] :: stack) true)
  | .value stack _, .openObject => some (.key stack [] true)
  | .value (.array [] :: stack) true, .closeArray => some (.after stack (.array []))
  | .value stack _, .null => some (.after stack .null)
  | .value stack _, .bool b => some (.after stack (.bool b))
  | .value stack _, .number n => some (.after stack (.number n))
  | .value stack _, .text s => some (.after stack (.text s))
  | .key stack members _, .text s => some (.colon stack members s)
  | .key stack [] true, .closeObject => some (.after stack (.object []))
  | .colon stack members k, .colon => some (.value (.object members k :: stack) false)
  | .after (.array items :: stack) v, .comma => some (.value (.array (v :: items) :: stack) false)
  | .after (.array items :: stack) v, .closeArray =>
    some (.after stack (.array (v :: items).reverse))
  | .after (.object members k :: stack) v, .comma =>
    some (.key stack ((k, v) :: members) false)
  | .after (.object members k :: stack) v, .closeObject =>
    some (.after stack (.object ((k, v) :: members).reverse))
  | _, _ => none

def Reading.run : Reading → List Token → Option Reading
  | r, [] => some r
  | r, t :: ts => (r.step t).bind fun r => r.run ts

/-- The value that the tokens write, if they write exactly one. -/
def ofTokens? (tokens : List Token) : Option Json :=
  match (Reading.value [] false).run tokens with
  | some (.after [] v) => some v
  | _ => none

/-- The value of a document. -/
def read? (document : String) : Option Json := (readTokens document.toList).bind ofTokens?

end Decommission.Json
