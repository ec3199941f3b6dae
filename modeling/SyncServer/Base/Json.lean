import SyncServer.Base.Text

/-! # JSON values -/

namespace SyncServer

/-- `serde_json::Value`; the keys of an object are in order. -/
inductive Json where
  | null
  | bool (value : Bool)
  | number (literal : String)
  | string (value : String)
  | array (items : List Json)
  | object (fields : List (String × Json))
deriving Repr

namespace Json

/-- `Map::insert`. -/
def insertField (key : String) (value : Json) : List (String × Json) → List (String × Json)
  | [] => [(key, value)]
  | (k, v) :: rest =>
    if key < k then (key, value) :: (k, v) :: rest
    else if key = k then (key, value) :: rest
    else (k, v) :: insertField key value rest

/-- `json!({ .. })`. -/
def ofFields (fields : List (String × Json)) : Json :=
  .object (fields.foldl (fun acc kv => insertField kv.1 kv.2 acc) [])

def ofInt (n : Int) : Json := .number (toString n)

def ofOption (o : Option Json) : Json := o.getD .null

/-- `Value::get`. -/
def get : Json → String → Option Json
  | .object fields, key => (fields.find? (fun kv => kv.1 = key)).map Prod.snd
  | _, _ => none

theorem get_insertField (key k : String) (value : Json) (fields : List (String × Json)) :
    (object (insertField k value fields)).get key =
      if k = key then some value else (object fields).get key := by
  simp only [get]
  induction fields with
  | nil => by_cases h : k = key <;> simp [insertField, h]
  | cons field fields ih =>
    rw [insertField]
    split
    · by_cases h : k = key <;> simp [h]
    · split
      · rename_i heq
        by_cases h : k = key <;> simp [h, ← heq]
      · rename_i hne
        by_cases h : field.1 = key
        · have hk : k ≠ key := fun hk => hne (hk.trans h.symm)
          simp [h, hk]
        · rw [List.find?_cons_of_neg (by simpa using h), ih,
            List.find?_cons_of_neg (by simpa using h)]

/-- `Value::as_str`. -/
def asStr : Json → Option String
  | .string s => some s
  | _ => none

end Json
end SyncServer
