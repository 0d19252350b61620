/-!
# Names

Names of fields, resources and functions are compared without regard to the case of ASCII letters.
A field name may have dots: what stands before the first one may be a resource, and the parts between
them may be steps into a nested record.
-/

namespace RecordQuery.Name

/-- A text with its ASCII letters in lower case. -/
def lower (text : String) : String :=
  String.ofList (text.toList.map Char.toLower)

/-- `same a b` holds when two names differ at most in the case of ASCII letters. -/
def same (a b : String) : Bool :=
  lower a == lower b

/-- `hasDot name` holds when the name has a dot. -/
def hasDot (name : String) : Bool :=
  name.toList.contains '.'

/-- What stands before and behind the first dot, if there is one. -/
def splitQualifier? (name : String) : Option (String × String) :=
  match name.toList.dropWhile (· != '.') with
  | _ :: behind => some (String.ofList (name.toList.takeWhile (· != '.')), String.ofList behind)
  | [] => none

/-- The parts between dots; there is always at least one, which may be empty. -/
def splitDots : List Char → List (List Char)
  | [] => [[]]
  | c :: rest =>
    if c = '.' then [] :: splitDots rest
    else
      match splitDots rest with
      | part :: parts => (c :: part) :: parts
      | [] => [[c]]

/-- The steps of a path. -/
def segments (name : String) : List String :=
  (splitDots name.toList).map String.ofList

end RecordQuery.Name
