/-!
# WikiPress.Json.Value

JSON values, kept as they were written: members in order, numbers unread.

Design points:

* A string may obey the grammar and still denote no text, because it has half a
  surrogate pair or bytes that are no UTF-8. Such a string is `none`: nobody can use it,
  but a value nobody uses may contain it.
* A name may occur twice in an object. What that means is up to who reads the object.
-/

namespace WikiPress.Json

/-- A JSON value. -/
inductive Value
  | null
  | boolean (value : Bool)
  /-- A number as written. -/
  | number (digits : String)
  | text (content : Option String)
  | array (items : List Value)
  | object (members : List (Option String × Value))

instance : Inhabited Value := ⟨.null⟩

end WikiPress.Json
