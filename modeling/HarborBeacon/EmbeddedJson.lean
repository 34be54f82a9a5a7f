import HarborBeacon.JsonText
import HarborBeacon.Text

/-!
A JSON object in the middle of the prose of a model. The scanner counts braces outside of string
literals, but takes the quotes of the prose for those of literals as well.
-/

namespace HarborBeacon.EmbeddedJson

open Json JsonText Text TextEncoding

section Scanner

structure Scan where
  depth : Nat
  startIndex : Option Nat
  inString : Bool
  escaped : Bool

def scan (state : Scan) (index : Nat) : List Char → Option (Nat × Nat)
  | [] => none
  | ch :: rest =>
      if state.escaped then scan { state with escaped := false } (index + 1) rest
      else if ch = backslash ∧ state.inString then
        scan { state with escaped := true } (index + 1) rest
      else if ch = quote then scan { state with inString := !state.inString } (index + 1) rest
      else if ch = openBrace ∧ ¬ state.inString then
        let startIndex := if state.depth = 0 then some index else state.startIndex
        scan { state with startIndex := startIndex, depth := state.depth + 1 } (index + 1) rest
      else if ch = closeBrace ∧ ¬ state.inString then
        if state.depth = 0 then scan state (index + 1) rest
        else if state.depth = 1 then state.startIndex.map fun start => (start, index + 1)
        else scan { state with depth := state.depth - 1 } (index + 1) rest
      else scan state (index + 1) rest

def objectRange (text : List Char) : Option (Nat × Nat) :=
  scan ⟨0, none, false, false⟩ 0 text

def extractFirstBalancedJsonObject (text : List Char) : Option (List Char) :=
  (objectRange text).map fun range => (text.drop range.1).take (range.2 - range.1)

variable {depth index : Nat} {start : Option Nat} {c : Char} {rest : List Char} {inString : Bool}

@[simp] theorem scan_nil (state : Scan) : scan state index [] = none :=
  rfl

@[simp] theorem scan_escaped :
    scan ⟨depth, start, inString, true⟩ index (c :: rest) =
      scan ⟨depth, start, inString, false⟩ (index + 1) rest := by
  rw [scan, if_pos rfl]

@[simp] theorem scan_backslash : scan ⟨depth, start, true, false⟩ index (backslash :: rest) =
    scan ⟨depth, start, true, true⟩ (index + 1) rest := by
  rw [scan, if_neg (by simp), if_pos ⟨rfl, rfl⟩]

@[simp] theorem scan_quote :
    scan ⟨depth, start, inString, false⟩ index (quote :: rest) =
      scan ⟨depth, start, !inString, false⟩ (index + 1) rest := by
  rw [scan, if_neg (by simp), if_neg (fun h => absurd h.1 (by decide)), if_pos rfl]

theorem scan_inString (hquote : c ≠ quote) (hbackslash : c ≠ backslash) :
    scan ⟨depth, start, true, false⟩ index (c :: rest) =
      scan ⟨depth, start, true, false⟩ (index + 1) rest := by
  rw [scan, if_neg (by simp), if_neg (by simp [hbackslash]), if_neg hquote, if_neg (by simp),
    if_neg (by simp)]

theorem scan_plain (hquote : c ≠ quote) (hopen : c ≠ openBrace) (hclose : c ≠ closeBrace) :
    scan ⟨depth, start, false, false⟩ index (c :: rest) =
      scan ⟨depth, start, false, false⟩ (index + 1) rest := by
  rw [scan, if_neg (by simp), if_neg (by simp), if_neg hquote, if_neg (by simp [hopen]),
    if_neg (by simp [hclose])]

theorem scan_open : scan ⟨depth, start, false, false⟩ index (openBrace :: rest) =
    scan ⟨depth + 1, if depth = 0 then some index else start, false, false⟩ (index + 1) rest := by
  rw [scan, if_neg (by simp), if_neg (by simp), if_neg (by decide), if_pos (by simp)]

theorem scan_close : scan ⟨depth, start, false, false⟩ index (closeBrace :: rest) =
    if depth = 0 then scan ⟨depth, start, false, false⟩ (index + 1) rest
    else if depth = 1 then start.map fun start => (start, index + 1)
    else scan ⟨depth - 1, start, false, false⟩ (index + 1) rest := by
  rw [scan, if_neg (by simp), if_neg (by simp), if_neg (by decide),
    if_neg (fun h => absurd h.1 (by decide)), if_pos (by simp)]

end Scanner

section Syntax

/-- What stands between the quotes of a literal. -/
inductive LiteralBody : List Char → Prop
  | nil : LiteralBody []
  | plain {c : Char} {rest : List Char} (hquote : c ≠ quote) (hbackslash : c ≠ backslash)
      (hrest : LiteralBody rest) : LiteralBody (c :: rest)
  | escape {c : Char} {rest : List Char} (hrest : LiteralBody rest) :
      LiteralBody (backslash :: c :: rest)

/-- The literals of a text are closed, and outside of them the braces are balanced. -/
inductive Balanced : List Char → Prop
  | nil : Balanced []
  | plain {c : Char} {rest : List Char} (hquote : c ≠ quote) (hopen : c ≠ openBrace)
      (hclose : c ≠ closeBrace) (hrest : Balanced rest) : Balanced (c :: rest)
  | literal {body rest : List Char} (hbody : LiteralBody body) (hrest : Balanced rest) :
      Balanced (quote :: (body ++ quote :: rest))
  | block {inner rest : List Char} (hinner : Balanced inner) (hrest : Balanced rest) :
      Balanced (openBrace :: (inner ++ closeBrace :: rest))

def Blank (text : List Char) : Prop :=
  ∀ c ∈ text, c = ' ' ∨ c = '\t' ∨ c = '\n' ∨ c = '\r'

def NameText (text : List Char) : Prop :=
  ∃ before body after, Blank before ∧ LiteralBody body ∧ Blank after ∧
    text = before ++ (quote :: (body ++ [quote])) ++ after

def arrayText (blank : List Char) (items : List (List Char)) : List Char :=
  '[' :: (blank ++ [','].intercalate items ++ [']'])

def objectText (blank : List Char) (members : List (List Char × List Char)) : List Char :=
  let parts := members.map fun member => member.1 ++ ':' :: member.2
  openBrace :: (blank ++ [','].intercalate parts ++ [closeBrace])

/-- The text of a JSON value; a number is any row of the characters that numbers have. -/
inductive ValueText : List Char → Prop
  | word {text : List Char} (h : text ∈ ["null".toList, "true".toList, "false".toList]) :
      ValueText text
  | number {text : List Char} (h : ∀ c ∈ text, c ∈ "+-.0123456789Ee".toList) (hne : text ≠ []) :
      ValueText text
  | literal {body : List Char} (hbody : LiteralBody body) :
      ValueText (quote :: (body ++ [quote]))
  | array {blank : List Char} {items : List (List Char)} (hblank : Blank blank)
      (hitems : ∀ item ∈ items, ValueText item) : ValueText (arrayText blank items)
  | object {blank : List Char} {members : List (List Char × List Char)} (hblank : Blank blank)
      (hnames : ∀ member ∈ members, NameText member.1)
      (hvalues : ∀ member ∈ members, ValueText member.2) : ValueText (objectText blank members)
  | padded {before text after : List Char} (hbefore : Blank before) (htext : ValueText text)
      (hafter : Blank after) : ValueText (before ++ text ++ after)

def ObjectText (text : List Char) : Prop :=
  ∃ blank members, Blank blank ∧ (∀ member ∈ members, NameText member.1) ∧
    (∀ member ∈ members, ValueText member.2) ∧ text = objectText blank members

variable {text front rest : List Char}

theorem Balanced.append (hfront : Balanced front) (hrest : Balanced rest) :
    Balanced (front ++ rest) := by
  induction hfront with
  | nil => exact hrest
  | plain hquote hopen hclose _ ih => exact .plain hquote hopen hclose ih
  | literal hbody _ ih =>
      rw [List.cons_append, List.append_assoc, List.cons_append]
      exact .literal hbody ih
  | block hinner _ _ ih =>
      rw [List.cons_append, List.append_assoc, List.cons_append]
      exact .block hinner ih

theorem balanced_of_plain
    (h : ∀ c ∈ text, c ≠ quote ∧ c ≠ openBrace ∧ c ≠ closeBrace) : Balanced text := by
  induction text with
  | nil => exact .nil
  | cons c rest ih =>
      rw [List.forall_mem_cons] at h
      obtain ⟨⟨hquote, hopen, hclose⟩, hrest⟩ := h
      exact .plain hquote hopen hclose (ih hrest)

theorem balanced_of_blank (h : Blank text) : Balanced text := by
  refine balanced_of_plain fun c hc => ?_
  obtain rfl | rfl | rfl | rfl := h c hc <;> decide

theorem balanced_literal {body : List Char} (hbody : LiteralBody body) :
    Balanced (quote :: (body ++ [quote])) :=
  .literal hbody .nil

theorem balanced_of_nameText (h : NameText text) : Balanced text := by
  obtain ⟨before, body, after, hbefore, hbody, hafter, rfl⟩ := h
  exact ((balanced_of_blank hbefore).append (balanced_literal hbody)).append
    (balanced_of_blank hafter)

theorem balanced_intercalate {parts : List (List Char)} (h : ∀ part ∈ parts, Balanced part) :
    Balanced ([','].intercalate parts) := by
  have hcomma : Balanced [','] := .plain (by decide) (by decide) (by decide) .nil
  induction parts with
  | nil => exact .nil
  | cons part parts ih =>
      rw [List.forall_mem_cons] at h
      cases parts with
      | nil => simpa [List.intercalate] using h.1
      | cons next parts =>
          rw [List.intercalate_cons_cons]
          exact (h.1.append hcomma).append (ih h.2)

theorem balanced_members {members : List (List Char × List Char)}
    (hnames : ∀ member ∈ members, NameText member.1)
    (hvalues : ∀ member ∈ members, Balanced member.2) :
    Balanced ([','].intercalate (members.map fun member => member.1 ++ ':' :: member.2)) := by
  refine balanced_intercalate ?_
  intro part hpart
  obtain ⟨member, hmem, rfl⟩ := List.mem_map.mp hpart
  exact (balanced_of_nameText (hnames member hmem)).append
    (.plain (by decide) (by decide) (by decide) (hvalues member hmem))

theorem balanced_of_valueText (h : ValueText text) : Balanced text := by
  induction h with
  | word h =>
      simp only [List.mem_cons, List.not_mem_nil, or_false] at h
      obtain rfl | rfl | rfl := h <;> exact balanced_of_plain (forall_mem_of_all (by decide))
  | number h _ =>
      have hplain : ∀ c ∈ "+-.0123456789Ee".toList, c ≠ quote ∧ c ≠ openBrace ∧ c ≠ closeBrace :=
        forall_mem_of_all (by decide)
      exact balanced_of_plain fun c hc => hplain c (h c hc)
  | literal hbody => exact balanced_literal hbody
  | array hblank _ ih =>
      have hends : ∀ c ∈ ['[', ']'], c ≠ quote ∧ c ≠ openBrace ∧ c ≠ closeBrace :=
        forall_mem_of_all (by decide)
      have hopen : Balanced ['['] := balanced_of_plain (by simpa using hends '[' (by simp))
      have hclose : Balanced [']'] := balanced_of_plain (by simpa using hends ']' (by simp))
      exact hopen.append
        (((balanced_of_blank hblank).append (balanced_intercalate ih)).append hclose)
  | object hblank hnames _ ih =>
      exact .block ((balanced_of_blank hblank).append (balanced_members hnames ih)) .nil
  | padded hbefore _ hafter ih =>
      exact ((balanced_of_blank hbefore).append ih).append (balanced_of_blank hafter)

theorem exists_inner_of_objectText (h : ObjectText text) :
    ∃ inner, text = openBrace :: (inner ++ [closeBrace]) ∧ Balanced inner := by
  obtain ⟨blank, members, hblank, hnames, hvalues, rfl⟩ := h
  refine ⟨_, rfl, (balanced_of_blank hblank).append (balanced_members hnames ?_)⟩
  exact fun member hmem => balanced_of_valueText (hvalues member hmem)

end Syntax

section Runs

variable {depth index first last : Nat} {start : Option Nat} {text body inner rest : List Char}
  {state : Scan}

theorem scan_literalBody (h : LiteralBody body) (depth : Nat) (start : Option Nat) (index : Nat)
    (rest : List Char) : scan ⟨depth, start, true, false⟩ index (body ++ quote :: rest) =
      scan ⟨depth, start, false, false⟩ (index + body.length + 1) rest := by
  induction h generalizing index with
  | nil => rw [List.nil_append, scan_quote]; rfl
  | plain hquote hbackslash _ ih =>
      rw [List.cons_append, scan_inString hquote hbackslash, ih, List.length_cons]
      congr 1
      omega
  | escape _ ih =>
      rw [List.cons_append, List.cons_append, scan_backslash, scan_escaped, ih, List.length_cons,
        List.length_cons]
      congr 1
      omega

theorem scan_balanced (h : Balanced text) (depth : Nat) (start : Option Nat) (index : Nat)
    (rest : List Char) : scan ⟨depth + 1, start, false, false⟩ index (text ++ rest) =
      scan ⟨depth + 1, start, false, false⟩ (index + text.length) rest := by
  induction h generalizing depth index rest with
  | nil => rfl
  | plain hquote hopen hclose _ ih =>
      rw [List.cons_append, scan_plain hquote hopen hclose, ih, List.length_cons]
      congr 1
      omega
  | @literal body others hbody _ ih =>
      rw [List.cons_append, List.append_assoc, List.cons_append, scan_quote, Bool.not_false,
        scan_literalBody hbody, ih, List.length_cons, List.length_append, List.length_cons]
      congr 1
      omega
  | @block inner others _ _ ihinner ih =>
      rw [List.cons_append, List.append_assoc, List.cons_append, scan_open, if_neg (by omega),
        ihinner, scan_close, if_neg (by omega), if_neg (by omega), Nat.add_sub_cancel, ih,
        List.length_cons, List.length_append, List.length_cons]
      congr 1
      omega

theorem scan_object (h : Balanced inner) :
    scan ⟨0, start, false, false⟩ index (openBrace :: (inner ++ closeBrace :: rest)) =
      some (index, index + inner.length + 2) := by
  rw [scan_open, if_pos rfl, scan_balanced h, scan_close, if_neg (by omega), if_pos rfl,
    Option.map_some]
  congr 2
  omega

def NoBraces (text : List Char) : Prop :=
  ∀ c ∈ text, c ≠ openBrace ∧ c ≠ closeBrace

theorem scan_prose (h : Balanced text) (hbraces : NoBraces text) (index : Nat) (rest : List Char) :
    scan ⟨depth, start, false, false⟩ index (text ++ rest) =
      scan ⟨depth, start, false, false⟩ (index + text.length) rest := by
  induction h generalizing index with
  | nil => rfl
  | plain hquote hopen hclose _ ih =>
      have hothers := (List.forall_mem_cons.mp hbraces).2
      rw [List.cons_append, scan_plain hquote hopen hclose, ih hothers, List.length_cons]
      congr 1
      omega
  | @literal body others hbody _ ih =>
      have hothers : NoBraces others := fun c hc => hbraces c (by simp [hc])
      rw [List.cons_append, List.append_assoc, List.cons_append, scan_quote, Bool.not_false,
        scan_literalBody hbody, ih hothers, List.length_cons, List.length_append, List.length_cons]
      congr 1
      omega
  | block => exact absurd rfl (hbraces openBrace List.mem_cons_self).1

theorem closes_or_open : ∀ text : List Char,
    (∃ body rest, text = body ++ quote :: rest ∧ LiteralBody body) ∨
      ∃ escaped, ∀ depth start index rest, scan ⟨depth, start, true, false⟩ index (text ++ rest) =
        scan ⟨depth, start, true, escaped⟩ (index + text.length) rest
  | [] => Or.inr ⟨false, fun _ _ _ _ => rfl⟩
  | c :: others => by
      by_cases hquote : c = quote
      · exact Or.inl ⟨[], others, by rw [hquote, List.nil_append], .nil⟩
      by_cases hbackslash : c = backslash
      · subst hbackslash
        match others with
        | [] => exact Or.inr ⟨true, fun _ _ _ _ => scan_backslash⟩
        | c :: others =>
            obtain ⟨body, rest, rfl, hbody⟩ | ⟨escaped, hscan⟩ := closes_or_open others
            · exact Or.inl ⟨backslash :: c :: body, rest, rfl, .escape hbody⟩
            · refine Or.inr ⟨escaped, fun depth start index rest => ?_⟩
              rw [List.cons_append, List.cons_append, scan_backslash, scan_escaped, hscan,
                List.length_cons, List.length_cons]
              congr 1
              omega
      · obtain ⟨body, rest, rfl, hbody⟩ | ⟨escaped, hscan⟩ := closes_or_open others
        · exact Or.inl ⟨c :: body, rest, rfl, .plain hquote hbackslash hbody⟩
        · refine Or.inr ⟨escaped, fun depth start index rest => ?_⟩
          rw [List.cons_append, scan_inString hquote hbackslash, hscan, List.length_cons]
          congr 1
          omega

theorem balanced_or_open (hbraces : NoBraces text) : Balanced text ∨
    ∃ escaped, ∀ depth start index rest, scan ⟨depth, start, false, false⟩ index (text ++ rest) =
      scan ⟨depth, start, true, escaped⟩ (index + text.length) rest := by
  induction hlength : text.length using Nat.strong_induction_on generalizing text with
  | _ n ih =>
      subst hlength
      cases text with
      | nil => exact Or.inl .nil
      | cons c others =>
          obtain ⟨⟨hopen, hclose⟩, hothers⟩ := List.forall_mem_cons.mp hbraces
          by_cases hquote : c = quote
          · subst hquote
            obtain ⟨body, rest, rfl, hbody⟩ | ⟨escaped, hscan⟩ := closes_or_open others
            · have hrest : NoBraces rest := fun c hc => hothers c (by simp [hc])
              have hlt : rest.length < (quote :: (body ++ quote :: rest)).length := by
                simp only [List.length_cons, List.length_append]
                omega
              obtain hbalanced | ⟨escaped, hscan⟩ := ih _ hlt hrest rfl
              · exact Or.inl (.literal hbody hbalanced)
              · refine Or.inr ⟨escaped, fun depth start index tail => ?_⟩
                rw [List.cons_append, List.append_assoc, List.cons_append, scan_quote,
                  Bool.not_false, scan_literalBody hbody, hscan, List.length_cons,
                  List.length_append, List.length_cons]
                congr 1
                omega
            · refine Or.inr ⟨escaped, fun depth start index tail => ?_⟩
              rw [List.cons_append, scan_quote, Bool.not_false, hscan, List.length_cons]
              congr 1
              omega
          · obtain hbalanced | ⟨escaped, hscan⟩ := ih _ (Nat.lt_succ_self _) hothers rfl
            · exact Or.inl (.plain hquote hopen hclose hbalanced)
            · refine Or.inr ⟨escaped, fun depth start index tail => ?_⟩
              rw [List.cons_append, scan_plain hquote hopen hclose, hscan, List.length_cons]
              congr 1
              omega

theorem startIndex_or_le (h : scan state index text = some (first, last)) :
    (state.depth ≠ 0 ∧ state.startIndex = some first) ∨ index ≤ first := by
  induction text generalizing state index with
  | nil => cases h
  | cons c rest ih =>
      have hlater : index + 1 ≤ first → index ≤ first := fun hle => by omega
      rw [scan] at h
      split_ifs at h with hescaped hbackslash hquote hopen hfresh hclose hzero hone
      · exact (ih h).imp_right hlater
      · exact (ih h).imp_right hlater
      · exact (ih h).imp_right hlater
      · obtain ⟨-, hstart⟩ | hle := ih h
        · exact Or.inr (Option.some.inj hstart).le
        · exact Or.inr (hlater hle)
      · obtain ⟨-, hstart⟩ | hle := ih h
        · exact Or.inl ⟨hfresh, hstart⟩
        · exact Or.inr (hlater hle)
      · exact (ih h).imp_right hlater
      · obtain ⟨begin, hbegin, hrange⟩ := Option.map_eq_some_iff.mp h
        rw [Prod.mk.injEq] at hrange
        exact Or.inl ⟨hzero, hbegin.trans (congrArg some hrange.1)⟩
      · obtain ⟨-, hstart⟩ | hle := ih h
        · exact Or.inl ⟨hzero, hstart⟩
        · exact Or.inr (hlater hle)
      · exact (ih h).imp_right hlater

theorem exists_balanced_of_scan
    (h : scan ⟨depth + 1, start, false, false⟩ index text = some (first, last)) :
    ∃ inner rest, text = inner ++ closeBrace :: rest ∧ Balanced inner := by
  induction hlength : text.length using Nat.strong_induction_on generalizing text depth index with
  | _ n ih =>
      subst hlength
      cases text with
      | nil => cases h
      | cons c others =>
          by_cases hquote : c = quote
          · subst hquote
            rw [scan_quote, Bool.not_false] at h
            obtain ⟨body, tail, rfl, hbody⟩ | ⟨escaped, hscan⟩ := closes_or_open others
            · rw [scan_literalBody hbody] at h
              have hlt : tail.length < (quote :: (body ++ quote :: tail)).length := by
                simp only [List.length_cons, List.length_append]
                omega
              obtain ⟨inner, rest, rfl, hinner⟩ := ih _ hlt h rfl
              exact ⟨quote :: (body ++ quote :: inner), rest, by simp, .literal hbody hinner⟩
            · have hnone := hscan (depth + 1) start (index + 1) []
              rw [List.append_nil, h] at hnone
              cases hnone
          by_cases hopen : c = openBrace
          · subst hopen
            rw [scan_open, if_neg (by omega)] at h
            obtain ⟨inner, tail, rfl, hinner⟩ := ih _ (Nat.lt_succ_self _) h rfl
            rw [scan_balanced hinner, scan_close, if_neg (by omega), if_neg (by omega),
              Nat.add_sub_cancel] at h
            have hlt : tail.length < (openBrace :: (inner ++ closeBrace :: tail)).length := by
              simp only [List.length_cons, List.length_append]
              omega
            obtain ⟨others, rest, rfl, hothers⟩ := ih _ hlt h rfl
            exact ⟨openBrace :: (inner ++ closeBrace :: others), rest, by simp,
              .block hinner hothers⟩
          by_cases hclose : c = closeBrace
          · exact ⟨[], others, by rw [hclose, List.nil_append], .nil⟩
          · rw [scan_plain hquote hopen hclose] at h
            obtain ⟨inner, rest, rfl, hinner⟩ := ih _ (Nat.lt_succ_self _) h rfl
            exact ⟨c :: inner, rest, rfl, .plain hquote hopen hclose hinner⟩

theorem exists_inner_of_scan {begin : Nat}
    (h : scan ⟨1, some begin, false, false⟩ index text = some (first, last)) :
    ∃ inner rest, text = inner ++ closeBrace :: rest ∧ Balanced inner ∧ begin = first ∧
      index + inner.length + 1 = last := by
  obtain ⟨inner, rest, rfl, hinner⟩ := exists_balanced_of_scan h
  rw [scan_balanced hinner, scan_close, if_neg (by omega), if_pos rfl, Option.map_some,
    Option.some.injEq, Prod.mk.injEq] at h
  exact ⟨inner, rest, rfl, hinner, h⟩

theorem exists_object_of_scan (hdepth : state.depth = 0)
    (h : scan state index text = some (first, last)) :
    ∃ before inner rest, text = before ++ openBrace :: (inner ++ closeBrace :: rest) ∧
      Balanced inner ∧ first = index + before.length ∧ last = first + inner.length + 2 := by
  induction text generalizing state index with
  | nil => cases h
  | cons c others ih =>
      have hlater : ∀ {state : Scan}, state.depth = 0 →
          scan state (index + 1) others = some (first, last) → ∃ before inner rest,
            c :: others = before ++ openBrace :: (inner ++ closeBrace :: rest) ∧ Balanced inner ∧
              first = index + before.length ∧ last = first + inner.length + 2 := by
        intro state hdepth h
        obtain ⟨before, inner, rest, rfl, hinner, hfirst, hlast⟩ := ih hdepth h
        refine ⟨c :: before, inner, rest, rfl, hinner, ?_, hlast⟩
        rw [hfirst, List.length_cons]
        omega
      rw [scan, if_pos hdepth, if_pos hdepth, hdepth] at h
      split_ifs at h with hescaped hbackslash hquote hopen hclose
      · exact hlater rfl h
      · exact hlater rfl h
      · exact hlater rfl h
      · obtain ⟨rfl, hinString⟩ := hopen
        simp only [Bool.eq_false_of_not_eq_true hescaped,
          Bool.eq_false_of_not_eq_true hinString] at h
        obtain ⟨inner, rest, rfl, hinner, rfl, rfl⟩ := exists_inner_of_scan h
        exact ⟨[], inner, rest, rfl, hinner, rfl, by omega⟩
      · exact hlater hdepth h
      · exact hlater hdepth h

end Runs

section Extraction

variable {text part prose object suffix inner : List Char}

def BalancedObject (text : List Char) : Prop :=
  ∃ inner, text = openBrace :: (inner ++ [closeBrace]) ∧ Balanced inner

theorem balancedObject_of_extract (h : extractFirstBalancedJsonObject text = some part) :
    BalancedObject part := by
  rw [extractFirstBalancedJsonObject, Option.map_eq_some_iff] at h
  obtain ⟨⟨first, last⟩, hrange, rfl⟩ := h
  obtain ⟨before, inner, rest, rfl, hinner, hfirst, hlast⟩ := exists_object_of_scan rfl hrange
  refine ⟨inner, ?_, hinner⟩
  have hlength : last - first = (inner ++ [closeBrace]).length + 1 := by
    rw [List.length_append, List.length_singleton]
    omega
  rw [Nat.zero_add] at hfirst
  rw [hlength, hfirst, List.drop_left, List.take_succ_cons, List.append_cons inner closeBrace rest,
    List.take_left]

theorem objectRange_eq_iff (suffix : List Char) (hprose : NoBraces prose)
    (hobject : ObjectText object) :
    objectRange (prose ++ object ++ suffix) =
      some (prose.length, prose.length + object.length) ↔ Balanced prose := by
  obtain ⟨inner, rfl, hinner⟩ := exists_inner_of_objectText hobject
  have hshape : prose ++ openBrace :: (inner ++ [closeBrace]) ++ suffix =
      prose ++ openBrace :: (inner ++ closeBrace :: suffix) := by simp
  rw [objectRange, hshape]
  constructor
  · intro hrange
    obtain hbalanced | ⟨escaped, hscan⟩ := balanced_or_open hprose
    · exact hbalanced
    · rw [hscan, Nat.zero_add] at hrange
      have hpassed : scan ⟨0, none, true, escaped⟩ prose.length
          (openBrace :: (inner ++ closeBrace :: suffix)) =
            scan ⟨0, none, true, false⟩ (prose.length + 1) (inner ++ closeBrace :: suffix) := by
        cases escaped with
        | true => exact scan_escaped
        | false => exact scan_inString (by decide) (by decide)
      rw [hpassed] at hrange
      obtain ⟨hdepth, -⟩ | hle := startIndex_or_le hrange
      · exact absurd rfl hdepth
      · omega
  · intro hbalanced
    rw [scan_prose hbalanced hprose, scan_object hinner, Nat.zero_add, List.length_cons,
      List.length_append, List.length_singleton]
    rfl

theorem extract_of_range
    (h : objectRange (prose ++ object ++ suffix) =
      some (prose.length, prose.length + object.length)) :
    extractFirstBalancedJsonObject (prose ++ object ++ suffix) = some object := by
  rw [extractFirstBalancedJsonObject, h, Option.map_some, List.append_assoc, List.drop_left,
    Nat.add_sub_cancel_left, List.take_left]

end Extraction

section Parsing

def fence : List Char :=
  List.replicate 3 (Char.ofNat 96)

def splitFences (skip : Nat) : List Char → List (List Char)
  | [] => [[]]
  | c :: rest =>
      match skip with
      | skip + 1 => splitFences skip rest
      | 0 =>
          if fence <+: c :: rest then [] :: splitFences 2 rest
          else (splitFences 0 rest).modifyHead (c :: ·)

def afterJsonWord (candidate : List Char) : List Char :=
  if "json".toList <+: candidate then trimChars (candidate.drop 4) else candidate

def parseJsonObjectFromText (fromStr : List Char → Option Value) (text : List Char) :
    Option Value :=
  let trimmed := trimChars text
  let candidates := ((splitFences 0 trimmed).map trimChars).filter fun candidate => candidate ≠ []
  let fenced := candidates.findSome? fun candidate => fromStr (afterJsonWord candidate)
  ((fromStr trimmed).or fenced).or ((extractFirstBalancedJsonObject trimmed).bind fromStr)

variable {fromStr : List Char → Option Value} {text prose object suffix : List Char}

theorem splitFences_of_not_infix (h : ¬ fence <:+: text) : splitFences 0 text = [text] := by
  induction text with
  | nil => rfl
  | cons c rest ih =>
      rw [List.infix_cons_iff, not_or] at h
      rw [splitFences, if_neg h.1, ih h.2]
      rfl

theorem parseJsonObjectFromText_eq (hnone : fromStr (trimChars text) = none)
    (hfence : ¬ fence <:+: trimChars text) (hne : trimChars text ≠ []) :
    parseJsonObjectFromText fromStr text =
      (fromStr (afterJsonWord (trimChars text))).or
        ((extractFirstBalancedJsonObject (trimChars text)).bind fromStr) := by
  have hcandidates : ([trimChars text].map trimChars).filter (fun candidate => candidate ≠ []) =
      [trimChars text] := by
    rw [List.map_singleton, trimChars_idem, List.filter_singleton]
    simp [hne]
  rw [parseJsonObjectFromText, hnone, splitFences_of_not_infix hfence, hcandidates, Option.none_or,
    List.findSome?_singleton]

theorem trimChars_infix (text : List Char) : trimChars text <:+: text :=
  (List.rdropWhile_prefix isWhitespace _).isInfix.trans (List.dropWhile_suffix _).isInfix

theorem trimChars_append_object (prose suffix : List Char) (hobject : ObjectText object) :
    trimChars (prose ++ object ++ suffix) =
      prose.dropWhile isWhitespace ++ object ++ suffix.rdropWhile isWhitespace := by
  obtain ⟨inner, rfl, -⟩ := exists_inner_of_objectText hobject
  have hopen : isWhitespace openBrace = false := by decide
  have hclose : isWhitespace closeBrace = false := by decide
  have hdrop := dropWhile_append_cons hopen prose (inner ++ [closeBrace] ++ suffix)
  have hrdrop := rdropWhile_append_concat hclose
    (prose.dropWhile isWhitespace ++ openBrace :: inner) suffix
  simp only [trimChars, List.append_assoc, List.cons_append] at hdrop hrdrop ⊢
  rw [hdrop, hrdrop]

theorem Balanced.dropWhile (h : Balanced prose) : Balanced (prose.dropWhile isWhitespace) := by
  induction h with
  | nil => exact .nil
  | plain hquote hopen hclose hrest ih =>
      rw [List.dropWhile_cons]
      split
      · exact ih
      · exact .plain hquote hopen hclose hrest
  | literal hbody hrest =>
      rw [List.dropWhile_cons_of_neg (by decide)]
      exact .literal hbody hrest
  | block hinner hrest =>
      rw [List.dropWhile_cons_of_neg (by decide)]
      exact .block hinner hrest

/-- The object is what is found, and what is parsed if the text is neither JSON nor fenced. -/
def FindsObject (fromStr : List Char → Option Value) (prose object suffix : List Char) : Prop :=
  let text := prose ++ object ++ suffix
  extractFirstBalancedJsonObject text = some object ∧
    objectRange text = some (prose.length, prose.length + object.length) ∧
    (fromStr (trimChars text) = none → ¬ fence <:+: text →
      parseJsonObjectFromText fromStr text = fromStr object)

/-- What follows a leading word `json` is no other value. -/
def NoOtherValue (fromStr : List Char → Option Value) (prose object suffix : List Char) : Prop :=
  let text := prose ++ object ++ suffix
  fromStr (trimChars text) = none → ¬ fence <:+: text →
    ∀ value, fromStr (afterJsonWord (trimChars text)) = some value → fromStr object = some value

theorem findsObject_iff (fromStr : List Char → Option Value) (hprose : NoBraces prose)
    (hobject : ObjectText object) :
    (∀ text part, extractFirstBalancedJsonObject text = some part → BalancedObject part) ∧
      (FindsObject fromStr prose object suffix ↔
        Balanced prose ∧ NoOtherValue fromStr prose object suffix) := by
  refine ⟨fun _ _ => balancedObject_of_extract, ?_⟩
  have hparts := trimChars_append_object prose suffix hobject
  have hne : trimChars (prose ++ object ++ suffix) ≠ [] := by
    obtain ⟨inner, rfl, -⟩ := exists_inner_of_objectText hobject
    rw [hparts]
    simp
  have hinfix := trimChars_infix (prose ++ object ++ suffix)
  have hrange := objectRange_eq_iff suffix hprose hobject
  have hfound : extractFirstBalancedJsonObject (prose ++ object ++ suffix) = some object ∧
      objectRange (prose ++ object ++ suffix) =
        some (prose.length, prose.length + object.length) ↔ Balanced prose :=
    ⟨fun h => hrange.mp h.2, fun h => ⟨extract_of_range (hrange.mpr h), hrange.mpr h⟩⟩
  rw [FindsObject, NoOtherValue, ← and_assoc, hfound]
  refine and_congr_right fun hbalanced => ?_
  have hextract : extractFirstBalancedJsonObject (trimChars (prose ++ object ++ suffix)) =
      some object := by
    rw [hparts]
    refine extract_of_range ((objectRange_eq_iff _ ?_ hobject).mpr hbalanced.dropWhile)
    exact fun c hc => hprose c ((List.dropWhile_suffix _).subset hc)
  refine forall_congr' fun hnone => forall_congr' fun hfence => ?_
  have hfence_trimmed : ¬ fence <:+: trimChars (prose ++ object ++ suffix) :=
    fun h => hfence (h.trans hinfix)
  rw [parseJsonObjectFromText_eq hnone hfence_trimmed hne, hextract, Option.bind_some]
  cases fromStr (afterJsonWord (trimChars (prose ++ object ++ suffix))) with
  | none => simp
  | some value => simp [eq_comm]

theorem objectText_empty : ObjectText [openBrace, closeBrace] :=
  ⟨[], [], fun _ hc => absurd hc List.not_mem_nil, by simp, by simp, rfl⟩

def readEmptyObject (text : List Char) : Option Value :=
  if text = [openBrace, closeBrace] then some (.object []) else none

theorem findsObject_iff_plain_prose :
    (∀ text part, extractFirstBalancedJsonObject text = some part → BalancedObject part) ∧
      (FindsObject readEmptyObject ['o', 'k', ' '] [openBrace, closeBrace] ['.'] ↔
        Balanced ['o', 'k', ' '] ∧
          NoOtherValue readEmptyObject ['o', 'k', ' '] [openBrace, closeBrace] ['.']) :=
  findsObject_iff readEmptyObject (forall_mem_of_all (by decide)) objectText_empty

/-- An inch mark in the prose hides the object. -/
theorem not_extracted_after_quote : ¬ ∀ prose object suffix : List Char,
    NoBraces prose → ObjectText object →
      extractFirstBalancedJsonObject (prose ++ object ++ suffix) = some object := by
  intro h
  have hprose : NoBraces ['5', quote] := forall_mem_of_all (by decide)
  have hfound := h _ _ [] hprose objectText_empty
  revert hfound
  decide

end Parsing

end HarborBeacon.EmbeddedJson
