import HarborBeacon.Json
import HarborBeacon.TextEncoding
import HarborBeacon.Words
import Mathlib.Algebra.Order.BigOperators.Group.List
import Mathlib.Data.List.Infix

/-!
The compact text that `serde_json` writes for a value, a struct or a list. It is a single
line, as control characters in texts are escaped.
-/

namespace HarborBeacon.JsonText

open Json TextEncoding Words

def openBrace : Char := Char.ofNat 123

def closeBrace : Char := Char.ofNat 125

def lineBreak : Char := Char.ofNat 10

def renderList (items : List (List Char)) : List Char :=
  '[' :: ([','].intercalate items ++ [']'])

def renderFields (fields : List (String × List Char)) : List Char :=
  openBrace :: ([','].intercalate (fields.map fun field => jsonString field.1 ++ ':' :: field.2) ++
    [closeBrace])

def renderNat (n : Nat) : List Char :=
  (toString n).toList

def renderBool : Bool → List Char
  | true => "true".toList
  | false => "false".toList

def renderNull : List Char :=
  "null".toList

def renderOption {α : Type} (renderSome : α → List Char) : Option α → List Char
  | some a => renderSome a
  | none => renderNull

def renderTexts (texts : List String) : List Char :=
  renderList (texts.map jsonString)

def renderOptionText (text : Option String) : List Char :=
  renderOption jsonString text

section Values

variable (renderFloat : UInt64 → List Char)

def renderNumber : Number → List Char
  | .unsigned n => renderNat n.toNat
  | .negative n => '-' :: renderNat n.toInt.natAbs
  | .float bits => renderFloat bits

mutual

def render : Value → List Char
  | .null => renderNull
  | .bool b => renderBool b
  | .number n => renderNumber renderFloat n
  | .string s => jsonString s
  | .array items => renderList (renderItems items)
  | .object fields => renderFields (renderEntries fields)

def renderItems : List Value → List (List Char)
  | [] => []
  | item :: rest => render item :: renderItems rest

def renderEntries : List (String × Value) → List (String × List Char)
  | [] => []
  | (name, value) :: rest => (name, render value) :: renderEntries rest

end

end Values

theorem sum_length_le_intercalate (separator : List Char) (parts : List (List Char)) :
    (parts.map List.length).sum ≤ (separator.intercalate parts).length := by
  induction parts with
  | nil => exact Nat.le_refl 0
  | cons first rest ih =>
      rcases eq_or_ne rest [] with rfl | hrest
      · rw [List.intercalate_singleton]
        simp
      · rw [List.intercalate_cons_of_ne_nil hrest]
        simp only [List.map_cons, List.sum_cons, List.length_append]
        omega

theorem sum_length_le_renderFields (fields : List (String × List Char)) :
    (fields.map fun field => field.2.length).sum ≤ (renderFields fields).length := by
  have hparts := sum_length_le_intercalate [',']
    (fields.map fun field => jsonString field.1 ++ ':' :: field.2)
  have hvalues : (fields.map fun field => field.2.length).sum ≤
      ((fields.map fun field => jsonString field.1 ++ ':' :: field.2).map List.length).sum := by
    rw [List.map_map]
    apply List.sum_le_sum
    intro field _
    simp only [Function.comp_apply, List.length_append, List.length_cons]
    omega
  rw [renderFields, List.length_cons, List.length_append]
  omega

theorem renderFields_cons_cons (name : String) (text : List Char)
    (next : String × List Char) (rest : List (String × List Char)) :
    renderFields ((name, text) :: next :: rest) =
      (openBrace :: jsonString name ++ [':']) ++
        (text ++ ',' :: (renderFields (next :: rest)).tail) := by
  simp only [renderFields, List.map_cons, List.intercalate_cons_cons, List.tail_cons,
    List.append_assoc, List.cons_append, List.nil_append]

variable {fields : List (String × Value)}

theorem mem_renderEntries {renderFloat : UInt64 → List Char} {name : String} {value : Value}
    (h : lookupField name fields = some value) :
    (name, render renderFloat value) ∈ renderEntries renderFloat fields := by
  induction fields with
  | nil => cases h
  | cons field rest ih =>
      obtain ⟨other, first⟩ := field
      rw [lookupField] at h
      rw [renderEntries]
      split at h
      · rename_i hname
        rw [hname, Option.some.inj h]
        exact List.mem_cons_self
      · exact List.mem_cons_of_mem _ (ih h)

theorem length_render_le (renderFloat : UInt64 → List Char) {name : String} {value : Value}
    (h : lookupField name fields = some value) :
    (render renderFloat value).length ≤ (render renderFloat (.object fields)).length := by
  have hobject : render renderFloat (.object fields) =
      renderFields (renderEntries renderFloat fields) := by
    rw [render]
  rw [hobject]
  refine Nat.le_trans ?_ (sum_length_le_renderFields _)
  exact List.le_sum_of_mem (List.mem_map_of_mem (f := fun field => field.2.length)
    (mem_renderEntries h))

section SingleLine

def SingleLine (text : List Char) : Prop :=
  lineBreak ∉ text

instance instDecidableSingleLine (text : List Char) : Decidable (SingleLine text) :=
  inferInstanceAs (Decidable (lineBreak ∉ text))

theorem singleLine_append {a b : List Char} :
    SingleLine (a ++ b) ↔ SingleLine a ∧ SingleLine b := by
  simp [SingleLine, not_or]

theorem singleLine_cons {c : Char} {text : List Char} (hc : c ≠ lineBreak) :
    SingleLine (c :: text) ↔ SingleLine text := by
  simp [SingleLine, hc.symm]

theorem singleLine_intercalate {parts : List (List Char)} (h : ∀ part ∈ parts, SingleLine part) :
    SingleLine ([','].intercalate parts) := by
  intro hmem
  have hwithin : [lineBreak] <:+: [','].intercalate parts := (List.singleton_infix_iff _ _).mpr hmem
  obtain ⟨lead, hlead⟩ := infix_iff_exists_lead.mp hwithin
  obtain ⟨before, word, after, lead', rfl, -, hword⟩ :=
    (prefix_intercalate_iff (by simp) (by decide)).mp hlead
  have hin : lineBreak ∈ word := hword.subset (by simp)
  exact h word (by simp) hin

theorem singleLine_controlEscape {n : Nat} (hn : n < 32) : SingleLine (controlEscape n) := by
  interval_cases n <;> decide

theorem singleLine_escapeChar (c : Char) : SingleLine (escapeChar c) := by
  unfold escapeChar
  split
  · rename_i hspecial
    rcases hspecial with rfl | rfl
    · decide
    · decide
  · split
    · rename_i hcontrol
      rw [singleLine_cons (by decide)]
      exact singleLine_controlEscape hcontrol
    · rename_i hcontrol
      intro hmem
      rw [← List.mem_singleton.mp hmem] at hcontrol
      exact hcontrol (by decide)

theorem singleLine_jsonString (s : String) : SingleLine (jsonString s) := by
  rw [jsonString, List.cons_append, singleLine_cons (by decide), singleLine_append]
  refine ⟨?_, by decide⟩
  intro hmem
  obtain ⟨c, -, hc⟩ := List.mem_flatMap.mp hmem
  exact singleLine_escapeChar c hc

theorem singleLine_renderNat (n : Nat) : SingleLine (renderNat n) := by
  intro hmem
  have hdigit : lineBreak.isDigit = true := by
    apply Nat.isDigit_of_mem_toDigits (by decide : 0 < 10) (by decide : 10 ≤ 10)
    rwa [renderNat, Nat.toString_eq_repr, Nat.toList_repr] at hmem
  exact absurd hdigit (by decide)

theorem singleLine_renderList {items : List (List Char)} (h : ∀ item ∈ items, SingleLine item) :
    SingleLine (renderList items) := by
  rw [renderList, singleLine_cons (by decide), singleLine_append]
  exact ⟨singleLine_intercalate h, by decide⟩

theorem singleLine_renderTexts (texts : List String) : SingleLine (renderTexts texts) := by
  apply singleLine_renderList
  intro item hitem
  obtain ⟨text, -, rfl⟩ := List.mem_map.mp hitem
  exact singleLine_jsonString text

theorem singleLine_renderFields {fields : List (String × List Char)}
    (h : ∀ field ∈ fields, SingleLine field.2) : SingleLine (renderFields fields) := by
  rw [renderFields, singleLine_cons (by decide), singleLine_append]
  refine ⟨singleLine_intercalate ?_, by decide⟩
  intro part hpart
  obtain ⟨field, hfield, rfl⟩ := List.mem_map.mp hpart
  rw [singleLine_append, singleLine_cons (by decide)]
  exact ⟨singleLine_jsonString _, h field hfield⟩

theorem singleLine_renderOption {α : Type} {renderSome : α → List Char}
    (h : ∀ a, SingleLine (renderSome a)) (option : Option α) :
    SingleLine (renderOption renderSome option) := by
  cases option with
  | none =>
      change SingleLine renderNull
      decide
  | some a => exact h a

theorem singleLine_renderOptionText (text : Option String) :
    SingleLine (renderOptionText text) := by
  rw [renderOptionText]
  exact singleLine_renderOption singleLine_jsonString text

variable {renderFloat : UInt64 → List Char}

theorem singleLine_renderNumber (hfloat : ∀ bits, SingleLine (renderFloat bits)) (n : Number) :
    SingleLine (renderNumber renderFloat n) := by
  cases n with
  | unsigned n => exact singleLine_renderNat _
  | negative n =>
      rw [renderNumber, singleLine_cons (by decide)]
      exact singleLine_renderNat _
  | float bits => exact hfloat bits

mutual

theorem singleLine_render (hfloat : ∀ bits, SingleLine (renderFloat bits)) :
    (value : Value) → SingleLine (render renderFloat value)
  | .null => by
      rw [render]
      decide
  | .bool true => by
      rw [render]
      decide
  | .bool false => by
      rw [render]
      decide
  | .number n => by
      rw [render]
      exact singleLine_renderNumber hfloat n
  | .string s => by
      rw [render]
      exact singleLine_jsonString s
  | .array items => by
      rw [render]
      exact singleLine_renderList (singleLine_renderItems hfloat items)
  | .object fields => by
      rw [render]
      exact singleLine_renderFields (singleLine_renderEntries hfloat fields)

theorem singleLine_renderItems (hfloat : ∀ bits, SingleLine (renderFloat bits)) :
    (items : List Value) → ∀ item ∈ renderItems renderFloat items, SingleLine item
  | [] => by simp [renderItems]
  | item :: rest => by
      rw [renderItems]
      exact List.forall_mem_cons.mpr
        ⟨singleLine_render hfloat item, singleLine_renderItems hfloat rest⟩

theorem singleLine_renderEntries (hfloat : ∀ bits, SingleLine (renderFloat bits)) :
    (fields : List (String × Value)) →
      ∀ field ∈ renderEntries renderFloat fields, SingleLine field.2
  | [] => by simp [renderEntries]
  | (name, value) :: rest => by
      rw [renderEntries]
      exact List.forall_mem_cons.mpr
        ⟨singleLine_render hfloat value, singleLine_renderEntries hfloat rest⟩

end

end SingleLine

end HarborBeacon.JsonText
