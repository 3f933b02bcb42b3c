import Mathlib.Data.Int.Notation
import Mathlib.Data.List.Basic
import Mathlib.Logic.Function.Basic

/-!
# The search index

What the services ask of Elasticsearch, through the builders of `common/infra/icsearch.hpp`, and the
values of JSON that they build.

* `Json.Value`, `Json.Object`: the values that go into a document or an outbox payload, which are
  objects of numbers, texts and lists of texts.
* `JsonLib`: the JSON library, which turns an object into a text and back.
* `EsRequest`: a request on one document of an index, with `act` and `accepted` for what the index
  does with it.
* `act_absorb`: a request that comes again later makes its first coming immaterial.
-/

namespace ChatNow

/-! ### JSON -/

/-- `Json::Value`, as far as it is built. -/
inductive Json.Value
  | null
  | int (n : ℤ)
  | string (s : String)
  | strings (l : List String)
  deriving DecidableEq

/-- A `Json::Value` that is an object. -/
abbrev Json.Object : Type := List (String × Json.Value)

namespace Json.Value

/-- `asString`; `none` when it throws. -/
def asString : Json.Value → Option String
  | null => some ""
  | int n => some (toString n)
  | string s => some s
  | strings _ => none

/-- `asInt`, `asInt64`; `none` when it throws. -/
def asInt : Json.Value → Option ℤ
  | null => some 0
  | int n => some n
  | _ => none

/-- The elements, each as a string, of a value that has a size. -/
def elements : Json.Value → List String
  | strings l => l
  | _ => []

end Json.Value

/-- `root.get(key, default)`. -/
def Json.Object.get (root : Json.Object) (key : String) (dflt : Json.Value) : Json.Value :=
  (root.lookup key).getD dflt

/-- `Serialize` and `UnSerialize`, and the texts they are about. -/
structure JsonLib where
  Text : Type
  [decEq : DecidableEq Text]
  Serialize : Json.Object → Text
  UnSerialize : Text → Option Json.Object
  round_trip : ∀ root, UnSerialize (Serialize root) = some root

/-- A library whose texts are the values. -/
def JsonLib.plain : JsonLib where
  Text := Json.Object
  Serialize := id
  UnSerialize := some
  round_trip _ := rfl

/-! ### Requests -/

/-- A document: its fields. -/
abbrev Document : Type := String → Option Json.Value

/-- A request on a document of one index. -/
inductive EsRequest
  /-- `ESInsert::insert`: the whole document. -/
  | index (id : String) (item : Json.Object)
  /-- `ESUpdate::update`: some fields of it, with `doc_as_upsert`, as every caller has it. -/
  | update (id : String) (doc : Json.Object)
  /-- `ESRemove::remove`. -/
  | remove (id : String)
  deriving DecidableEq

namespace EsRequest

/-- The document that a request is about. -/
def id : EsRequest → String
  | index id _ => id
  | update id _ => id
  | remove id => id

/-- The document after a request. -/
def act : EsRequest → Option Document → Option Document
  | index _ item, _ => some fun field ↦ item.lookup field
  | update _ doc, some d => some fun field ↦ (doc.lookup field).or (d field)
  | update _ doc, none => some fun field ↦ doc.lookup field
  | remove _, _ => none

/-- The status of the answer is a success: what is removed has to be there. -/
def accepted : EsRequest → Option Document → Bool
  | index _ _, _ => true
  | update _ _, _ => true
  | remove _, d => d.isSome

/-- The index after a request. -/
def run (r : EsRequest) (idx : String → Option Document) : String → Option Document :=
  Function.update idx r.id (r.act (idx r.id))

/-- **What a request does, it undoes of its own first coming.** -/
theorem act_absorb (r q : EsRequest) (d : Option Document) :
    r.act (q.act (r.act d)) = r.act (q.act d) := by
  cases r with
  | index id item => rfl
  | remove id => rfl
  | update id doc =>
    cases q with
    | index id' item => rfl
    | remove id' => rfl
    | update id' doc' =>
      have hfield (x : Option Json.Value) (f : String) :
          (doc.lookup f).or ((doc'.lookup f).or ((doc.lookup f).or x)) =
            (doc.lookup f).or ((doc'.lookup f).or x) := by
        cases doc.lookup f <;> rfl
      cases d with
      | none => exact congrArg some (funext fun f ↦ by simpa using hfield none f)
      | some d => exact congrArg some (funext fun f ↦ hfield (d f) f)

end EsRequest

end ChatNow
