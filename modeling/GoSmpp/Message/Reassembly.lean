import GoSmpp.Message.RoundTrip

/-!
# What `Reassemble` accepts

* `Whole`: the segments of one message, each once, in any order.
* `reassemble_ok_iff`: reassembly succeeds exactly when the sorted segments are a complete set.
* `CompleteSet.whole`, `Whole.complete`: and they are one exactly when the segments are whole.
* `reassemble_whole`: the characterisation, whatever function sorts the segments.
-/

namespace GoSmpp.Message

open GoSmpp.Lib GoSmpp.Encoding
open GoSmpp.Protocol hiding Kind

/-- The segments of one message, each of them once. -/
structure Whole (segments : List Segment) : Prop where
  nonempty : segments ≠ []
  agree : ∀ s ∈ segments, ∀ t ∈ segments,
    s.reference = t.reference ∧ s.kind = t.kind ∧ s.dataCoding = t.dataCoding ∧ s.total = t.total
  count : ∀ s ∈ segments, s.total.toNat = segments.length
  sequences : (segments.map (·.sequence.toNat)).Perm (List.range' 1 segments.length)

theorem Whole.perm {segments segments' : List Segment} (h : Whole segments) (hp : segments'.Perm segments) :
    Whole segments' where
  nonempty hnil := h.nonempty (List.nil_perm.mp (hnil ▸ hp))
  agree s hs t ht := h.agree s (hp.subset hs) t (hp.subset ht)
  count s hs := (h.count s (hp.subset hs)).trans hp.length_eq.symm
  sequences := by
    rw [hp.length_eq]
    exact (hp.map _).trans h.sequences

theorem map_toNat_numbers {n : Nat} (h : n ≤ 255) : (numbers 0 n).map (·.toNat) = List.range' 1 n := by
  rw [numbers, List.map_map, List.range'_eq_map_range, List.range'_eq_map_range, List.map_map]
  refine List.map_congr_left fun i hi => ?_
  have hi : i < n := List.mem_range.mp hi
  show (UInt8.ofNat (0 + i + 1)).toNat = 1 + i
  rw [toNat_number (by omega)]
  omega

theorem eq_numbers {l : List UInt8} {n : Nat} (hn : n ≤ 255) (h : l.map (·.toNat) = List.range' 1 n) : l = numbers 0 n := by
  rw [← map_toNat_numbers hn] at h
  exact List.map_injective_iff.mpr (fun _ _ => UInt8.toNat.inj) h

/-! ## Inversion -/

theorem joinParts_ok {first : Segment} : ∀ (parts : List Segment) (i : Nat) (data : Octets),
    joinParts first i parts = .ok data →
    (∀ p ∈ parts, Shared first.reference first.kind first.dataCoding first.total p) ∧
      parts.map (·.sequence) = numbers i parts.length ∧ (parts.map (·.data)).flatten = data
  | [], _, _, h => by
    cases h
    exact ⟨fun _ hp => absurd hp List.not_mem_nil, rfl, rfl⟩
  | part :: parts, i, data, h => by
    rw [joinParts] at h
    split at h
    case isTrue => cases h
    case isFalse hagree =>
      obtain ⟨rest, hrest, rfl⟩ := Except.ok_of_map h
      obtain ⟨hshared, hseqs, rfl⟩ := joinParts_ok parts (i + 1) rest hrest
      simp only [not_or, not_not] at hagree
      obtain ⟨hreference, hkind, hcoding, htotal, hseq⟩ := hagree
      refine ⟨List.forall_mem_cons.mpr ⟨⟨hreference, hkind, hcoding, htotal⟩, hshared⟩, ?_, rfl⟩
      rw [List.map_cons, hseq, hseqs, List.length_cons, numbers_succ]

section Reassemble
variable {sortFunc : SortFunc} {segments : List Segment} {data : Octets}

theorem reassemble_ok (h : reassemble sortFunc segments = .ok data) :
    ∃ kind, CompleteSet (sortFunc.sort segments) kind data := by
  unfold reassemble at h
  dsimp only at h
  split at h
  case h_1 => cases h
  case h_2 =>
    split at h
    case h_1 => cases h
    case h_2 first rest hparts =>
      split at h
      case isTrue => cases h
      case isFalse =>
        split at h
        case isTrue => cases h
        case isFalse htotal =>
          have htotal : first.total.toNat = (sortFunc.sort segments).length := not_not.mp htotal
          obtain ⟨hshared, hseqs, hdata⟩ := joinParts_ok _ 0 data h
          have hcount : UInt8.ofNat (sortFunc.sort segments).length = first.total := by rw [← htotal, UInt8.ofNat_toNat]
          exact ⟨first.kind, {
            positive := List.length_pos_iff.mpr (hparts ▸ List.cons_ne_nil _ _)
            atMost := by
              have := first.total.toNat_lt
              omega
            numbered := hseqs
            shared := ⟨first.reference, first.dataCoding, hcount ▸ hshared⟩
            content := hdata }⟩

theorem reassemble_ok_iff :
    reassemble sortFunc segments = .ok data ↔ ∃ kind, CompleteSet (sortFunc.sort segments) kind data :=
  ⟨reassemble_ok, fun ⟨_, h⟩ => h.reassemble sortFunc (sortFunc.perm segments).symm⟩

end Reassemble

/-! ## Whole sets -/

section Whole
variable {segments : List Segment} {kind : Kind} {data : Octets}

theorem CompleteSet.whole (h : CompleteSet segments kind data) : Whole segments where
  nonempty := List.length_pos_iff.mp h.positive
  agree s hs t ht := by
    obtain ⟨_, _, hshared⟩ := h.shared
    have hs := hshared s hs
    have ht := hshared t ht
    exact ⟨hs.reference.trans ht.reference.symm, hs.kind.trans ht.kind.symm, hs.coding.trans ht.coding.symm,
      hs.total.trans ht.total.symm⟩
  count s hs := by
    obtain ⟨_, _, hshared⟩ := h.shared
    have hle := h.atMost
    rw [(hshared s hs).total, UInt8.toNat_ofNat', Nat.mod_eq_of_lt (by omega)]
  sequences := by
    have hseqs : segments.map (·.sequence.toNat) = (segments.map (·.sequence)).map (·.toNat) := by
      rw [List.map_map]
      rfl
    rw [hseqs, h.numbered, map_toNat_numbers h.atMost]

theorem Whole.complete (h : Whole segments) (hsorted : segments.Pairwise fun a b => a.sequence.toNat ≤ b.sequence.toNat) :
    ∃ kind, CompleteSet segments kind (segments.map (·.data)).flatten := by
  obtain ⟨first, rest, rfl⟩ := List.exists_cons_of_ne_nil h.nonempty
  have hcount := h.count first List.mem_cons_self
  have hle : (first :: rest).length ≤ 255 := by
    have := first.total.toNat_lt
    omega
  have hrange : (first :: rest).map (·.sequence.toNat) = List.range' 1 (first :: rest).length :=
    h.sequences.eq_of_pairwise' (List.pairwise_map.mpr hsorted) (List.pairwise_le_range' _)
  refine ⟨first.kind, {
    positive := Nat.succ_pos _
    atMost := hle
    numbered := eq_numbers hle (by rw [List.map_map]; exact hrange)
    shared := ⟨first.reference, first.dataCoding, fun s hs => ?_⟩
    content := rfl }⟩
  obtain ⟨hreference, hkind, hcoding, htotal⟩ := h.agree s hs first List.mem_cons_self
  exact ⟨hreference, hkind, hcoding, by rw [htotal, ← hcount, UInt8.ofNat_toNat]⟩

end Whole

/-- **What `Reassemble` accepts.** It succeeds exactly on the whole sets, returns the data in the order of the sequence
numbers, and does not depend on the order the segments come in. -/
theorem reassemble_whole (sortFunc : SortFunc) (segments : List Segment) :
    ((∃ data, reassemble sortFunc segments = .ok data) ↔ Whole segments) ∧
    (∀ (data : Octets) (parts : List Segment), reassemble sortFunc segments = .ok data → parts.Perm segments →
      parts.Pairwise (fun a b => a.sequence.toNat ≤ b.sequence.toNat) → data = (parts.map (·.data)).flatten) ∧
    (∀ segments' : List Segment, segments'.Perm segments →
      (reassemble sortFunc segments').toOption = (reassemble sortFunc segments).toOption) := by
  have hperm := sortFunc.perm segments
  have hiff : (∃ data, reassemble sortFunc segments = .ok data) ↔ Whole segments := by
    constructor
    · rintro ⟨data, hdata⟩
      obtain ⟨kind, hc⟩ := reassemble_ok hdata
      exact hc.whole.perm hperm.symm
    · intro hw
      obtain ⟨kind, hc⟩ := (hw.perm hperm).complete (sortFunc.sorted segments)
      exact ⟨_, reassemble_ok_iff.mpr ⟨kind, hc⟩⟩
  refine ⟨hiff, fun data parts hdata hparts hsorted => ?_, fun segments' hp => ?_⟩
  · have hw := hiff.mp ⟨data, hdata⟩
    obtain ⟨kind, hc⟩ := (hw.perm hparts).complete hsorted
    -- the parts in order are complete, so their content is what is returned
    have hr := hc.reassemble sortFunc hparts.symm
    rw [hdata] at hr
    exact Except.ok.inj hr
  · cases h : reassemble sortFunc segments with
    | ok data =>
      obtain ⟨kind, hc⟩ := reassemble_ok h
      rw [hc.reassemble sortFunc (hp.trans hperm.symm)]
    | error err =>
      cases h' : reassemble sortFunc segments' with
      | error err' => rfl
      | ok data =>
        obtain ⟨kind, hc⟩ := reassemble_ok h'
        rw [hc.reassemble sortFunc (hp.symm.trans (sortFunc.perm segments').symm)] at h
        cases h

def firstPart : Segment :=
  { reference := 7, total := 2, sequence := 1, kind := .binary, dataCoding := dataCodingOctetBinary2, units := 1,
    data := [0x61], userData := [0x61] }

def secondPart : Segment := { firstPart with sequence := 2, data := [0x62], userData := [0x62] }

/-- The second part comes first. -/
theorem reassemble_whole_swapped : reassemble (Sorter.merge _) [secondPart, firstPart] = .ok [0x61, 0x62] := by
  obtain ⟨hiff, hdata, -⟩ := reassemble_whole (Sorter.merge _) [secondPart, firstPart]
  have hwhole : Whole [secondPart, firstPart] := {
    nonempty := List.cons_ne_nil _ _
    agree := by decide
    count := by decide
    sequences := List.Perm.swap 1 2 [] }
  obtain ⟨data, h⟩ := hiff.mpr hwhole
  rw [h, hdata data [firstPart, secondPart] h (List.Perm.swap _ _ _) (by decide)]
  rfl

end GoSmpp.Message
