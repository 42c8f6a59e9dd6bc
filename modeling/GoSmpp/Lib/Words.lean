import GoSmpp.Lib.Octets

/-!
# Words of a byte string

* `Separators` : a set of separator codes in a self-synchronising encoding, as UTF-8 is: an octet inside a character never
  starts one;
* `fields` : the words of a text, the maximal parts without a separator, as `strings.FieldsFunc` has them. The words of a
  text with a separator in it are those of its two parts (`fields_separated`); a text that starts with octets of no
  separator has a word that starts with them (`fields_start`);
* `whiteSpace` : the characters of `unicode.IsSpace`;
* `equalFold` : `strings.EqualFold` with an ASCII text.
-/

namespace GoSmpp.Lib

/-- Codes of separators. Their first octets are not `inner`, all others are, and no code starts another. -/
structure Separators where
  codes : List Octets
  inner : UInt8 → Bool
  starts : ∀ c ∈ codes, c ≠ [] ∧ c.head?.all (!inner ·) = true ∧ c.tail.all inner = true
  free : ∀ c ∈ codes, ∀ d ∈ codes, c <+: d → c = d

namespace Separators
variable (S : Separators)

/-- How many octets the separator takes that a text starts with, 0 where there is none. -/
def width (text : Octets) : Nat := ((S.codes.find? (·.isPrefixOf text)).map List.length).getD 0

/-- The word that has been read, unless it is empty. -/
def flush (word : Octets) : List Octets := if word = [] then [] else [word]

/-- The words that end in a text, and the one at its end. `skip` octets belong to a separator, `word` has been read. -/
def scan : (skip : Nat) → (word text : Octets) → List Octets × Octets
  | _, word, [] => ([], word)
  | skip + 1, word, _ :: rest => scan skip word rest
  | 0, word, b :: rest =>
    match S.width (b :: rest) with
    | 0 => scan 0 (word ++ [b]) rest
    | n + 1 => (flush word ++ (scan n [] rest).1, (scan n [] rest).2)

def fields (text : Octets) : List Octets := (S.scan 0 [] text).1 ++ flush (S.scan 0 [] text).2

/-- A text does not start inside a character. -/
def Starts (text : Octets) : Prop := ∀ b ∈ text.head?, S.inner b = false

variable {S} {c text t q sep word : Octets}

theorem starts_of_mem (hc : c ∈ S.codes) : S.Starts (c ++ t) := by
  obtain ⟨hne, hhead, -⟩ := S.starts c hc
  intro b hb
  rw [List.head?_append_of_ne_nil c hne] at hb
  rw [Option.mem_def.mp hb] at hhead
  exact Bool.not_eq_true' _ |>.mp hhead

theorem code_append_iff (hc : c ∈ S.codes) (htext : text ≠ []) (ht : S.Starts t) : c <+: text ++ t ↔ c <+: text := by
  refine ⟨?_, fun h => h.trans (List.prefix_append text t)⟩
  intro h
  rcases Nat.le_total c.length text.length with hle | hle
  · exact List.prefix_of_prefix_length_le h (List.prefix_append text t) hle
  -- otherwise the octets of the code behind the text are inner, and the first of `t` is not
  obtain ⟨r, rfl⟩ := List.prefix_of_prefix_length_le (List.prefix_append text t) h hle
  obtain ⟨t', rfl⟩ := (List.prefix_append_right_inj text).mp h
  match r with
  | [] =>
    rw [List.append_nil]
  | x :: r =>
    have hx : x ∈ (text ++ x :: r).tail := by
      rw [List.tail_append_of_ne_nil htext]
      exact List.mem_append_right _ List.mem_cons_self
    have hinner : S.inner x = true := List.all_eq_true.mp (S.starts _ hc).2.2 x hx
    have hstart : S.inner x = false := ht x rfl
    rw [hinner] at hstart
    cases hstart

theorem width_append (htext : text ≠ []) (ht : S.Starts t) : S.width (text ++ t) = S.width text := by
  have hfind : S.codes.find? (·.isPrefixOf (text ++ t)) = S.codes.find? (·.isPrefixOf text) := by
    refine List.find?_congr ?_
    intro c hc
    rw [Bool.eq_iff_iff, List.isPrefixOf_iff_prefix, List.isPrefixOf_iff_prefix]
    exact code_append_iff hc htext ht
  rw [width, hfind, width]

theorem width_le (text : Octets) : S.width text ≤ text.length := by
  unfold width
  cases hfind : S.codes.find? (·.isPrefixOf text) with
  | none => exact Nat.zero_le _
  | some c =>
    have hc := List.find?_some (p := fun c : Octets => c.isPrefixOf text) hfind
    exact (List.isPrefixOf_iff_prefix.mp hc).length_le

theorem width_code (hsep : sep ∈ S.codes) : S.width sep = sep.length := by
  unfold width
  cases hfind : S.codes.find? (·.isPrefixOf sep) with
  | none =>
    have hnot := List.find?_eq_none.mp hfind sep hsep
    exact absurd (List.isPrefixOf_iff_prefix.mpr (List.prefix_refl sep)) hnot
  | some c =>
    have hc := List.find?_some (p := fun c : Octets => c.isPrefixOf sep) hfind
    rw [S.free c (List.mem_of_find?_eq_some hfind) sep hsep (List.isPrefixOf_iff_prefix.mp hc)]
    rfl

theorem width_zero {b : UInt8} (hb : ∀ c ∈ S.codes, c.head? ≠ some b) (rest : Octets) : S.width (b :: rest) = 0 := by
  have hfind : S.codes.find? (·.isPrefixOf (b :: rest)) = none := by
    refine List.find?_eq_none.mpr ?_
    intro c hc h
    obtain ⟨r, hr⟩ := List.isPrefixOf_iff_prefix.mp h
    match c, (S.starts c hc).1 with
    | x :: c, _ =>
      rw [List.cons_append, List.cons.injEq] at hr
      exact hb _ hc (congrArg some hr.1)
  rw [width, hfind]
  rfl

/-! ## The words of two parts -/

theorem scan_append (ht : S.Starts t) : ∀ (skip : Nat) (word text : Octets), skip ≤ text.length →
    S.scan skip word (text ++ t) =
      ((S.scan skip word text).1 ++ (S.scan 0 (S.scan skip word text).2 t).1, (S.scan 0 (S.scan skip word text).2 t).2)
  | 0, word, [], _ => by cases t <;> rfl
  | skip + 1, word, b :: rest, hskip => scan_append ht skip word rest (Nat.le_of_succ_le_succ hskip)
  | 0, word, b :: rest, _ => by
    have hwidth : S.width (b :: (rest ++ t)) = S.width (b :: rest) := width_append (List.cons_ne_nil b rest) ht
    have hle := S.width_le (b :: rest)
    rw [List.cons_append, scan, scan, hwidth]
    cases hw : S.width (b :: rest) with
    | zero => exact scan_append ht 0 (word ++ [b]) rest (Nat.zero_le _)
    | succ n =>
      rw [hw, List.length_cons] at hle
      simp only [scan_append ht n [] rest (Nat.le_of_succ_le_succ hle), List.append_assoc]

theorem scan_skip : ∀ (text word t : Octets), S.scan text.length word (text ++ t) = S.scan 0 word t
  | [], _, _ => rfl
  | _ :: rest, word, t => scan_skip rest word t

theorem scan_code (hsep : sep ∈ S.codes) (ht : S.Starts t) :
    S.scan 0 word (sep ++ t) = (flush word ++ (S.scan 0 [] t).1, (S.scan 0 [] t).2) := by
  have hne := (S.starts sep hsep).1
  have hwidth := (width_append hne ht).trans (width_code hsep)
  match sep with
  | [] => exact absurd rfl hne
  | b :: rest =>
    rw [List.cons_append] at hwidth ⊢
    rw [scan, hwidth]
    exact congrArg (fun r : List Octets × Octets => (flush word ++ r.1, r.2)) (scan_skip rest [] t)

/-- **The words of a text with a separator in it are those before it and those behind it.** -/
theorem fields_separated (hsep : sep ∈ S.codes) (ht : S.Starts t) : S.fields (q ++ sep ++ t) = S.fields q ++ S.fields t := by
  rw [List.append_assoc, fields, scan_append (starts_of_mem hsep) 0 [] q (Nat.zero_le _), scan_code hsep ht]
  simp only [fields, List.append_assoc]

theorem scan_word : ∀ (text word : Octets), word ≠ [] → ∃ (more : Octets) (words : List Octets),
    (S.scan 0 word text).1 ++ flush (S.scan 0 word text).2 = (word ++ more) :: words
  | [], word, hword => ⟨[], [], by rw [scan, flush, if_neg hword, List.append_nil]; rfl⟩
  | b :: rest, word, hword => by
    rw [scan]
    cases S.width (b :: rest) with
    | zero =>
      obtain ⟨more, words, h⟩ := scan_word rest (word ++ [b]) (by simp)
      exact ⟨b :: more, words, by rw [h, List.append_assoc]; rfl⟩
    | succ n =>
      refine ⟨[], (S.scan n [] rest).1 ++ flush (S.scan n [] rest).2, ?_⟩
      simp only [flush, if_neg hword, List.append_nil, List.cons_append, List.nil_append]

theorem scan_octets : ∀ (m word s : Octets), (∀ b ∈ m, ∀ c ∈ S.codes, c.head? ≠ some b) →
    S.scan 0 word (m ++ s) = S.scan 0 (word ++ m) s
  | [], word, s, _ => by rw [List.append_nil]; rfl
  | b :: m, word, s, h => by
    obtain ⟨hb, hm⟩ := List.forall_mem_cons.mp h
    rw [List.cons_append, scan, width_zero hb, scan_octets m (word ++ [b]) s hm, List.append_assoc]
    rfl

theorem fields_start {m : Octets} (hm : m ≠ []) (h : ∀ b ∈ m, ∀ c ∈ S.codes, c.head? ≠ some b) (s : Octets) :
    ∃ (more : Octets) (words : List Octets), S.fields (m ++ s) = (m ++ more) :: words := by
  rw [fields, scan_octets m [] s h]
  exact scan_word s m hm

end Separators

/-! ## White space -/

/-- The characters of `unicode.IsSpace` in UTF-8. -/
def whiteSpace : Separators where
  codes := [[0x09], [0x0a], [0x0b], [0x0c], [0x0d], [0x20], [0xc2, 0x85], [0xc2, 0xa0], [0xe1, 0x9a, 0x80],
    [0xe2, 0x80, 0x80], [0xe2, 0x80, 0x81], [0xe2, 0x80, 0x82], [0xe2, 0x80, 0x83], [0xe2, 0x80, 0x84], [0xe2, 0x80, 0x85],
    [0xe2, 0x80, 0x86], [0xe2, 0x80, 0x87], [0xe2, 0x80, 0x88], [0xe2, 0x80, 0x89], [0xe2, 0x80, 0x8a], [0xe2, 0x80, 0xa8],
    [0xe2, 0x80, 0xa9], [0xe2, 0x80, 0xaf], [0xe2, 0x81, 0x9f], [0xe3, 0x80, 0x80]]
  inner b := 0x80 ≤ b && b ≤ 0xbf
  starts := by decide
  free := by decide

def fields (text : Octets) : List Octets := whiteSpace.fields text

/-! ## Case folding -/

/-- An ASCII letter in lower case. -/
def lower (b : UInt8) : UInt8 := if 0x41 ≤ b ∧ b ≤ 0x5a then b + 0x20 else b

/-- `strings.EqualFold(s, t)` for an ASCII text `t`. Beside the letters themselves `ſ` folds to `s` and the Kelvin sign
to `k`. -/
def equalFold : Octets → Octets → Bool
  | [], [] => true
  | 0xc5 :: 0xbf :: s, b :: t => lower b == 0x73 && equalFold s t
  | 0xe2 :: 0x84 :: 0xaa :: s, b :: t => lower b == 0x6b && equalFold s t
  | a :: s, b :: t => a < 0x80 && lower a == lower b && equalFold s t
  | _, _ => false

end GoSmpp.Lib
