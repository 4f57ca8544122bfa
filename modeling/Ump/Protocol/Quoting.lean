import Mathlib.Data.List.Induction
import Ump.Protocol.Json

/-!
# Quoted texts

## Reading escapes

A quoted text can be read from its end. Inside it each quotation mark follows a
backslash, so the opening mark is the last one that does not, and the escapes of the
characters in between can be told apart.
-/

namespace Ump

namespace Json

def hexValue (c : Char) : Nat :=
  if c.toNat < 87 then c.toNat - 48 else c.toNat - 87

def unescape : Text -> Option (Char × Text)
  | '\\' :: 'u' :: '0' :: '0' :: high :: low :: rest =>
      some (Char.ofNat (16 * hexValue high + hexValue low), rest)
  | '\\' :: 'n' :: rest => some ('\n', rest)
  | '\\' :: 'r' :: rest => some ('\r', rest)
  | '\\' :: 't' :: rest => some ('\t', rest)
  | '\\' :: 'f' :: rest => some (Char.ofNat 12, rest)
  | '\\' :: 'b' :: rest => some (Char.ofNat 8, rest)
  | '\\' :: c :: rest => some (c, rest)
  | c :: rest => some (c, rest)
  | [] => none

theorem unescape_plain {c : Char} (h : c ≠ '\\') (rest : Text) :
    unescape (c :: rest) = some (c, rest) := by
  unfold unescape
  split <;> simp_all

theorem hexValue_hexDigit {n : Nat} (h : n < 16) : hexValue (hexDigit n) = n := by
  have hall : forall m : Fin 16, hexValue (hexDigit m.val) = m.val := by decide
  exact hall ⟨n, h⟩

def shortEscapes : List (Char × Char) :=
  [('"', '"'), ('\\', '\\'), ('\n', 'n'), ('\r', 'r'), ('\t', 't'), (Char.ofNat 12, 'f'),
    (Char.ofNat 8, 'b')]

inductive Escaped (c : Char) : Text -> Prop where
  | plain (hquote : c ≠ '"') (hbackslash : c ≠ '\\') : Escaped c [c]
  | short {letter : Char} (h : (c, letter) ∈ shortEscapes) : Escaped c ['\\', letter]
  | control (h : c.toNat < 32) :
      Escaped c ['\\', 'u', '0', '0', hexDigit (c.toNat / 16), hexDigit (c.toNat % 16)]

theorem escape_escaped (c : Char) : Escaped c (escape c) := by
  unfold escape
  by_cases hplain : 34 < c.toNat ∧ c.toNat ≠ 92
  · rw [if_pos hplain]
    apply Escaped.plain
    · rintro rfl
      exact absurd hplain.1 (by decide)
    · rintro rfl
      exact hplain.2 (by decide)
  rw [if_neg hplain]
  by_cases hquote : c = '"'
  · rw [if_pos hquote, hquote]
    exact .short (by decide)
  rw [if_neg hquote]
  by_cases hbackslash : c = '\\'
  · rw [if_pos hbackslash, hbackslash]
    exact .short (by decide)
  rw [if_neg hbackslash]
  by_cases hn : c = '\n'
  · rw [if_pos hn, hn]
    exact .short (by decide)
  rw [if_neg hn]
  by_cases hr : c = '\r'
  · rw [if_pos hr, hr]
    exact .short (by decide)
  rw [if_neg hr]
  by_cases ht : c = '\t'
  · rw [if_pos ht, ht]
    exact .short (by decide)
  rw [if_neg ht]
  by_cases hf : c = Char.ofNat 12
  · rw [if_pos hf, hf]
    exact .short (by decide)
  rw [if_neg hf]
  by_cases hb : c = Char.ofNat 8
  · rw [if_pos hb, hb]
    exact .short (by decide)
  rw [if_neg hb]
  by_cases hcontrol : c.toNat < 32
  · rw [if_pos hcontrol]
    exact .control hcontrol
  · rw [if_neg hcontrol]
    exact .plain hquote hbackslash

theorem unescape_short {c letter : Char} (h : (c, letter) ∈ shortEscapes) (rest : Text) :
    unescape ('\\' :: letter :: rest) = some (c, rest) := by
  have hall : forall entry, entry ∈ shortEscapes ->
      unescape ('\\' :: entry.2 :: rest) = some (entry.1, rest) := by
    intro entry hentry
    unfold shortEscapes at hentry
    rcases List.mem_cons.mp hentry with rfl | hentry
    · rfl
    rcases List.mem_cons.mp hentry with rfl | hentry
    · rfl
    rcases List.mem_cons.mp hentry with rfl | hentry
    · rfl
    rcases List.mem_cons.mp hentry with rfl | hentry
    · rfl
    rcases List.mem_cons.mp hentry with rfl | hentry
    · rfl
    rcases List.mem_cons.mp hentry with rfl | hentry
    · rfl
    cases List.mem_singleton.mp hentry
    rfl
  exact hall (c, letter) h

theorem unescape_escape (c : Char) (rest : Text) :
    unescape (escape c ++ rest) = some (c, rest) := by
  have hescaped := escape_escaped c
  generalize escape c = text at hescaped ⊢
  cases hescaped with
  | plain _ hbackslash => exact unescape_plain hbackslash rest
  | short h => exact unescape_short h rest
  | control h =>
      show some (Char.ofNat (16 * hexValue (hexDigit (c.toNat / 16)) +
        hexValue (hexDigit (c.toNat % 16))), rest) = _
      rw [hexValue_hexDigit (by omega), hexValue_hexDigit (Nat.mod_lt _ (by omega)),
        Nat.div_add_mod, Char.ofNat_toNat]

theorem escape_append_inj {c d : Char} {x y : Text} (h : escape c ++ x = escape d ++ y) :
    c = d ∧ x = y := by
  have hread := unescape_escape c x
  rw [h, unescape_escape] at hread
  cases hread
  exact ⟨rfl, rfl⟩

theorem escape_ne_nil (c : Char) : escape c ≠ [] := by
  have hescaped := escape_escaped c
  generalize escape c = text at hescaped ⊢
  cases hescaped <;> exact List.cons_ne_nil _ _

theorem flatMap_escape_inj {cs ds : List Char} (h : cs.flatMap escape = ds.flatMap escape) :
    cs = ds := by
  induction cs generalizing ds with
  | nil =>
      cases ds with
      | nil => rfl
      | cons d ds => exact absurd (List.append_eq_nil_iff.mp h.symm).1 (escape_ne_nil d)
  | cons c cs ih =>
      cases ds with
      | nil => exact absurd (List.append_eq_nil_iff.mp h).1 (escape_ne_nil c)
      | cons d ds =>
          rcases escape_append_inj h with ⟨rfl, hrest⟩
          rw [ih hrest]

/-!
## Finding the opening mark
-/

def Masked (text : Text) : Prop :=
  forall before after, text = before ++ '"' :: after -> before.getLast? = some '\\'

theorem masked_of_not_mem {text : Text} (h : '"' ∉ text) : Masked text := by
  rintro before after rfl
  simp at h

theorem Masked.append {a b : Text} (ha : Masked a) (hb : Masked b) : Masked (a ++ b) := by
  intro before after h
  rcases List.append_eq_append_iff.mp h with ⟨middle, rfl, hrest⟩ | ⟨middle, rfl, hrest⟩
  · rw [List.getLast?_append, hb middle after hrest]
    rfl
  · cases middle with
    | nil => exact absurd (hb [] after hrest.symm) (by simp)
    | cons c middle =>
        cases hrest
        exact ha before middle rfl

theorem masked_escape (c : Char) : Masked (escape c) := by
  have hescaped := escape_escaped c
  generalize escape c = text at hescaped ⊢
  cases hescaped with
  | plain hquote _ =>
      apply masked_of_not_mem
      intro hmem
      exact hquote (List.mem_singleton.mp hmem).symm
  | short _ =>
      intro before after h
      cases before with
      | nil => exact absurd (List.cons.inj h).1 (by decide)
      | cons first before =>
          cases (List.cons.inj h).1
          cases before with
          | nil => rfl
          | cons second before =>
              have hnil := (List.cons.inj (List.cons.inj h).2).2
              exact absurd hnil.symm (by simp)
  | control h =>
      have hdigit : forall n : Fin 16, '"' ≠ hexDigit n.val := by decide
      have hhigh := hdigit ⟨c.toNat / 16, by omega⟩
      have hlow := hdigit ⟨c.toNat % 16, Nat.mod_lt _ (by omega)⟩
      exact masked_of_not_mem (by simp [hhigh, hlow])

theorem masked_flatMap_escape (cs : List Char) : Masked (cs.flatMap escape) := by
  induction cs with
  | nil => exact masked_of_not_mem (by simp)
  | cons c cs ih => exact (masked_escape c).append ih

theorem opening_eq {x y a b : Text} {c d : Char} (hc : c ≠ '\\') (hb : Masked b)
    (h : x ++ c :: '"' :: a = y ++ d :: '"' :: b)
    (hlonger : y.length ≤ x.length) : x = y ∧ c = d ∧ a = b := by
  have hsplit : (y ++ [d]) ++ '"' :: b = (x ++ [c]) ++ '"' :: a := by simpa using h.symm
  rcases List.append_eq_append_iff.mp hsplit with ⟨middle, hx, hrest⟩ | ⟨middle, hy, hrest⟩
  · cases middle with
    | nil =>
        rcases List.append_inj' (hx.trans (List.append_nil _)) rfl with ⟨rfl, hlast⟩
        cases hlast
        cases hrest
        exact ⟨rfl, rfl, rfl⟩
    | cons first middle =>
        cases (List.cons.inj hrest).1
        have hlast := hb middle a (List.cons.inj hrest).2
        have hend : (x ++ [c]).getLast? = some '\\' := by
          rw [hx, List.getLast?_append, List.getLast?_cons, hlast]
          rfl
        rw [List.getLast?_concat] at hend
        exact absurd (Option.some.inj hend) hc
  · have hlength := congrArg List.length hy
    cases middle with
    | nil =>
        rcases List.append_inj' (hy.trans (List.append_nil _)) rfl with ⟨rfl, hlast⟩
        cases hlast
        cases hrest
        exact ⟨rfl, rfl, rfl⟩
    | cons first middle =>
        simp only [List.length_append, List.length_cons, List.length_nil] at hlength
        omega

theorem quote_end {x y : Text} {c d : Char} {s t : String} (hc : c ≠ '\\') (hd : d ≠ '\\')
    (h : x ++ c :: quote s = y ++ d :: quote t) : x = y ∧ c = d ∧ s = t := by
  unfold quote at h
  have hbody : x ++ c :: '"' :: s.toList.flatMap escape =
      y ++ d :: '"' :: t.toList.flatMap escape := by
    apply (List.append_left_inj ['"']).mp
    simpa using h
  have hs := masked_flatMap_escape s.toList
  have ht := masked_flatMap_escape t.toList
  rcases Nat.le_total y.length x.length with hle | hle
  · rcases opening_eq hc ht hbody hle with ⟨hxy, hcd, htexts⟩
    exact ⟨hxy, hcd, String.toList_inj.mp (flatMap_escape_inj htexts)⟩
  · rcases opening_eq hd hs hbody.symm hle with ⟨hxy, hcd, htexts⟩
    exact ⟨hxy.symm, hcd.symm, String.toList_inj.mp (flatMap_escape_inj htexts.symm)⟩

/-!
## Arrays of texts
-/

theorem commaSeparated_concat {items : List Text} (h : items ≠ []) (last : Text) :
    commaSeparated (items ++ [last]) = commaSeparated items ++ ',' :: last := by
  induction items with
  | nil => exact absurd rfl h
  | cons head rest ih =>
      cases rest with
      | nil => rfl
      | cons next rest =>
          show head ++ ',' :: commaSeparated ((next :: rest) ++ [last]) = _
          rw [ih (by simp)]
          simp [commaSeparated]

theorem commaSeparated_suffix {items : List Text} (h : items ≠ []) (key last : Text) :
    exists before, commaSeparated (items ++ [key ++ ':' :: last]) = before ++ ':' :: last := by
  rw [commaSeparated_concat h]
  exact ⟨commaSeparated items ++ ',' :: key, by simp⟩

theorem dumpsItems_map_str (items : List String) :
    dumpsItems (items.map str) = items.map quote := by
  induction items with
  | nil => rfl
  | cons head rest ih =>
      show dumps (str head) :: dumpsItems (rest.map str) = quote head :: rest.map quote
      rw [ih, dumps]

/-- The array up to its last text, without the closing bracket. -/
def openArray (x : Text) (items : List String) : Text :=
  x ++ '[' :: commaSeparated (items.map quote)

/-- The sign in front of one more text of the array, and what comes before the sign. -/
def beforeNext (x : Text) : List String -> Text × Char
  | [] => (x, '[')
  | items => (openArray x items, ',')

theorem openArray_concat (x : Text) (items : List String) (last : String) :
    openArray x (items ++ [last]) =
      (beforeNext x items).1 ++ (beforeNext x items).2 :: quote last := by
  cases items with
  | nil => rfl
  | cons head rest =>
      unfold openArray
      rw [List.map_append, List.map_singleton, commaSeparated_concat (by simp)]
      simp [beforeNext, openArray]

theorem beforeNext_ne_backslash (x : Text) (items : List String) :
    (beforeNext x items).2 ≠ '\\' := by
  cases items with
  | nil => exact (by decide : '[' ≠ '\\')
  | cons head rest => exact (by decide : ',' ≠ '\\')

theorem openArray_of_beforeNext {x y : Text} {items others : List String}
    (h : beforeNext x items = beforeNext y others) : openArray x items = openArray y others := by
  cases items with
  | nil =>
      cases others with
      | nil =>
          cases h
          rfl
      | cons head rest => exact absurd (congrArg Prod.snd h) (by simp [beforeNext])
  | cons head rest =>
      cases others with
      | nil => exact absurd (congrArg Prod.snd h) (by simp [beforeNext])
      | cons other others => exact congrArg Prod.fst h

theorem openArray_nil_ne_concat (x y : Text) (items : List String) (last : String) :
    openArray x [] ≠ openArray y (items ++ [last]) := by
  intro h
  rw [openArray_concat] at h
  have hquote : (quote last).getLast? = some '"' := by
    unfold quote
    rw [← List.cons_append, List.getLast?_concat]
  have hends := congrArg List.getLast? h
  rw [List.getLast?_append, List.getLast?_cons, hquote] at hends
  simp [openArray, commaSeparated] at hends

theorem openArray_inj {x y : Text} {items others : List String}
    (h : openArray x items = openArray y others) : items = others := by
  induction items using List.reverseRecOn generalizing others with
  | nil =>
      cases others using List.reverseRecOn with
      | nil => rfl
      | append_singleton others last =>
          exact absurd h (openArray_nil_ne_concat x y others last)
  | append_singleton items last ih =>
      cases others using List.reverseRecOn with
      | nil => exact absurd h.symm (openArray_nil_ne_concat y x items last)
      | append_singleton others other =>
          rw [openArray_concat, openArray_concat] at h
          rcases quote_end (beforeNext_ne_backslash x items) (beforeNext_ne_backslash y others) h
            with ⟨hbefore, hsign, rfl⟩
          rw [ih (openArray_of_beforeNext (Prod.ext hbefore hsign))]

theorem strings_end {x y : Text} {items others : List String}
    (h : x ++ (strings items).dumps = y ++ (strings others).dumps) : items = others := by
  unfold strings at h
  rw [dumps, dumps, dumpsItems_map_str, dumpsItems_map_str] at h
  apply @openArray_inj x y
  apply (List.append_left_inj [']']).mp
  simpa [openArray] using h

end Json

end Ump
