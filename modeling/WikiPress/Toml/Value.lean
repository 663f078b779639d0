/-!
# WikiPress.Toml.Value

The values of a TOML document.
-/

namespace WikiPress.Toml

/-- A TOML value. -/
inductive Value
  | text (content : String)
  | integer (value : Int)
  /-- A float as written. -/
  | float (digits : String)
  | boolean (value : Bool)
  /-- A date, a time, or both, as written. -/
  | datetime (digits : String)
  | array (items : List Value)
  | table (entries : List (String × Value))

instance : Inhabited Value := ⟨.boolean false⟩

end WikiPress.Toml
