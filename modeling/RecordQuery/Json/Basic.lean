import RecordQuery.Binary64.Text
/-!
# JSON documents

The documents that bring records in and carry rows out. A number is an integer of 64 bits or a number
of the binary format. An object keeps the order in which its keys first appeared; a key that comes
again replaces the value where the key stands.
-/

namespace RecordQuery

/-- A JSON document. -/
inductive Json where
  | null
  | boolean (b : Bool)
  | integer (n : Int64)
  | float (x : Float)
  | string (s : String)
  | array (items : List Json)
  | object (fields : List (String × Json))

namespace Json

/-- The fields with one field set, in the place where its key stands or else at the end. -/
def setField (key : String) (value : Json) : List (String × Json) → List (String × Json)
  | [] => [(key, value)]
  | (k, v) :: rest =>
    if k = key then (k, value) :: rest else (k, v) :: setField key value rest

/-- The object with the given fields. -/
def ofFields (fields : List (String × Json)) : Json :=
  .object (fields.foldl (fun object (key, value) => setField key value object) [])

end Json

end RecordQuery
