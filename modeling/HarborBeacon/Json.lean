import Mathlib.Data.String.Basic

/-!
JSON values as `serde_json` holds them, their navigation by pointer, and the way a
derived deserializer reads a struct from a value.
-/

namespace HarborBeacon.Json

/-- A JSON number: a `u64`, a negative `i64`, or a double given by its bits. -/
inductive Number where
  | unsigned (n : UInt64)
  | negative (n : Int64)
  | float (bits : UInt64)
deriving DecidableEq

/-- A JSON value. The fields of an object stand in the order of their keys. -/
inductive Value where
  | null
  | bool (b : Bool)
  | number (n : Number)
  | string (s : String)
  | array (items : List Value)
  | object (fields : List (String × Value))
deriving Inhabited

namespace Value

mutual

def decEq : (a b : Value) → Decidable (a = b)
  | null, null => isTrue rfl
  | bool a, bool b => decidable_of_iff (a = b) (by simp)
  | number a, number b => decidable_of_iff (a = b) (by simp)
  | string a, string b => decidable_of_iff (a = b) (by simp)
  | array a, array b =>
      have := decEqItems a b
      decidable_of_iff (a = b) (by simp)
  | object a, object b =>
      have := decEqFields a b
      decidable_of_iff (a = b) (by simp)
  | null, bool _ | null, number _ | null, string _ | null, array _ | null, object _
  | bool _, null | bool _, number _ | bool _, string _ | bool _, array _ | bool _, object _
  | number _, null | number _, bool _ | number _, string _ | number _, array _
  | number _, object _ | string _, null | string _, bool _ | string _, number _
  | string _, array _ | string _, object _ | array _, null | array _, bool _
  | array _, number _ | array _, string _ | array _, object _ | object _, null
  | object _, bool _ | object _, number _ | object _, string _ | object _, array _ =>
      isFalse nofun

def decEqItems : (a b : List Value) → Decidable (a = b)
  | [], [] => isTrue rfl
  | x :: xs, y :: ys =>
      have := decEq x y
      have := decEqItems xs ys
      decidable_of_iff (x = y ∧ xs = ys) (by simp)
  | [], _ :: _ | _ :: _, [] => isFalse nofun

def decEqFields : (a b : List (String × Value)) → Decidable (a = b)
  | [], [] => isTrue rfl
  | (k, x) :: xs, (l, y) :: ys =>
      have := decEq x y
      have := decEqFields xs ys
      decidable_of_iff (k = l ∧ x = y ∧ xs = ys) (by simp [and_assoc])
  | [], _ :: _ | _ :: _, [] => isFalse nofun

end

instance : DecidableEq Value := decEq

def asStr : Value → Option String
  | string s => some s
  | _ => none

def asBool : Value → Option Bool
  | bool b => some b
  | _ => none

def asU64 : Value → Option UInt64
  | number (.unsigned n) => some n
  | _ => none

def asArray : Value → Option (List Value)
  | array items => some items
  | _ => none

def isObject : Value → Bool
  | object _ => true
  | _ => false

/-- The `serde_json` form of an optional text. -/
def ofOption : Option String → Value
  | some s => string s
  | none => null

def ofStrings (texts : List String) : Value :=
  array (texts.map string)

def ofOptionU64 : Option UInt64 → Value
  | some n => number (.unsigned n)
  | none => null

end Value

open Value

abbrev Fields := List (String × Value)

def lookupField (key : String) : Fields → Option Value
  | [] => none
  | (k, v) :: rest => if k = key then some v else lookupField key rest

/-- `Map::insert`: a present key keeps its place and takes the new value. -/
def insertField (key : String) (value : Value) : Fields → Fields
  | [] => [(key, value)]
  | (k, v) :: rest =>
      if k = key then (key, value) :: rest
      else if key < k then (key, value) :: (k, v) :: rest
      else (k, v) :: insertField key value rest

def removeField (key : String) (fields : Fields) : Fields :=
  fields.filter fun field => field.1 ≠ key

/-- The object that `json!` builds from the listed fields. -/
def obj (fields : Fields) : Value :=
  .object (fields.foldl (fun acc field => insertField field.1 field.2 acc) [])

@[simp] theorem lookupField_insertField (key k : String) (value : Value) (fields : Fields) :
    lookupField key (insertField k value fields) =
      if k = key then some value else lookupField key fields := by
  induction fields with
  | nil => simp [insertField, lookupField]
  | cons field rest ih =>
      obtain ⟨l, v⟩ := field
      simp only [insertField]
      split_ifs <;> simp_all [lookupField]

def insertSome (key : String) : Option Value → Fields → Fields
  | some value, fields => insertField key value fields
  | none, fields => fields

def structObj (fields : List (String × Option Value)) : Value :=
  .object (fields.foldl (fun acc field => insertSome field.1 field.2 acc) [])

@[simp] theorem lookupField_insertSome (key k : String) (value : Option Value)
    (fields : Fields) :
    lookupField key (insertSome k value fields) =
      if k = key then value.or (lookupField key fields) else lookupField key fields := by
  cases value <;> simp [insertSome]

@[simp] theorem lookupField_removeField (key k : String) (fields : Fields) :
    lookupField key (removeField k fields) =
      if k = key then none else lookupField key fields := by
  induction fields with
  | nil => simp [removeField, lookupField]
  | cons field rest ih =>
      obtain ⟨l, v⟩ := field
      simp only [removeField, List.filter_cons] at ih ⊢
      split_ifs <;> simp_all [lookupField]

def Value.get (key : String) : Value → Option Value
  | object fields => lookupField key fields
  | _ => none

def parseIndex (token : String) : Option Nat :=
  let digits := token.toList
  if digits.isEmpty || !digits.all Char.isDigit ||
      (digits.head? == some '0' && digits.length != 1) then none
  else some (digits.foldl (fun n c => 10 * n + (c.toNat - '0'.toNat)) 0)

def Value.pointer : List String → Value → Option Value
  | [], v => some v
  | token :: rest, object fields => (lookupField token fields).bind (pointer rest)
  | token :: rest, array items =>
      ((parseIndex token).bind fun i => items[i]?).bind (pointer rest)
  | _ :: _, _ => none

@[simp] theorem pointer_nil (v : Value) : v.pointer [] = some v := rfl

@[simp] theorem pointer_cons_object (token : String) (rest : List String) (fields : Fields) :
    (object fields).pointer (token :: rest) =
      (lookupField token fields).bind (Value.pointer rest) := rfl

section Deserializer

variable {α : Type} {β : Type}

/-- How the fields of a struct with `count` fields are read from a value: by name from
an object, by position from an array. -/
def structFields (count : Nat) : Value → Option (Nat → String → Option Value)
  | object fields => some fun _ name => lookupField name fields
  | array items => if items.length ≤ count then some fun index _ => items[index]? else none
  | _ => none

/-- A field marked `#[serde(default)]`. -/
def orDefault (field : Option Value) (decode : Value → Option α) (fallback : α) : Option α :=
  match field with
  | some v => decode v
  | none => some fallback

@[simp] theorem orDefault_some (v : Value) (decode : Value → Option α) (a : α) :
    orDefault (some v) decode a = decode v := rfl

@[simp] theorem orDefault_none (decode : Value → Option α) (a : α) :
    orDefault none decode a = some a := rfl

def decodeString : Value → Option String := Value.asStr

def decodeOption (decode : Value → Option α) : Value → Option (Option α)
  | null => some none
  | v => (decode v).map some

def decodeList (decode : Value → Option α) : Value → Option (List α)
  | array items => items.mapM decode
  | _ => none

/-- An unsigned integer type of the given width; a value of it in a JSON number never
exceeds `u64`. -/
def decodeUnsigned (bits : Nat) : Value → Option Nat
  | number (.unsigned n) => if n.toNat < 2 ^ bits then some n.toNat else none
  | _ => none

/-- A fieldless enum: its variant name, or an object with the name as its only key. -/
def decodeVariant (variants : List (String × α)) : Value → Option α
  | string name => variants.lookup name
  | object [(name, null)] => variants.lookup name
  | _ => none

/-- `serialize_u128` of the value serializer: out of range above `u64`. -/
def encodeU128 (n : Nat) : Except String Value :=
  if n < 2 ^ 64 then .ok (number (.unsigned (UInt64.ofNat n)))
  else .error "number out of range"

def encodeU16 (n : UInt16) : Value :=
  number (.unsigned n.toUInt64)

def decodeU16 (v : Value) : Option UInt16 :=
  (decodeUnsigned 16 v).map UInt16.ofNat

@[simp] theorem decodeU16_encodeU16 (n : UInt16) : decodeU16 (encodeU16 n) = some n := by
  have hlt : n.toNat < 2 ^ 16 := n.toNat_lt
  simpa [decodeU16, encodeU16, decodeUnsigned] using hlt

theorem decodeUnsigned_of_encodeU128 {n : Nat} {v : Value} (h : encodeU128 n = .ok v) :
    decodeUnsigned 128 v = some n := by
  unfold encodeU128 at h
  split at h
  · rename_i hn
    cases h
    have hmod : (UInt64.ofNat n).toNat = n := by
      rw [UInt64.toNat_ofNat', Nat.mod_eq_of_lt hn]
    have hlt : n < 2 ^ 128 := Nat.lt_trans hn (by decide)
    simp only [decodeUnsigned, hmod, hlt, if_true]
  · cases h

@[simp] theorem decodeOption_ofOption (s : Option String) :
    decodeOption decodeString (ofOption s) = some s := by
  cases s <;> rfl

theorem mapM_decode_map (encode : β → Value) (decode : Value → Option β)
    (h : ∀ b, decode (encode b) = some b) (items : List β) :
    (items.map encode).mapM decode = some items := by
  induction items with
  | nil => rfl
  | cons item rest ih => simp [List.mapM_cons, h, ih]

@[simp] theorem decodeString_string (s : String) : decodeString (.string s) = some s := rfl

@[simp] theorem asBool_bool (b : Bool) : asBool (.bool b) = some b := rfl

theorem decodeList_map (encode : β → Value) (decode : Value → Option β)
    (h : ∀ b, decode (encode b) = some b) (items : List β) :
    decodeList decode (array (items.map encode)) = some items :=
  mapM_decode_map encode decode h items

@[simp] theorem decodeList_ofStrings (texts : List String) :
    decodeList decodeString (ofStrings texts) = some texts :=
  mapM_decode_map Value.string decodeString (fun _ => rfl) texts

end Deserializer

end HarborBeacon.Json
