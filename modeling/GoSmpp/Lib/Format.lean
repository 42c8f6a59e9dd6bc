import GoSmpp.Lib.Octets

/-!
# Readers and appenders of octet strings

* `Reader ε α` : a computation that consumes a prefix of the unread octets or fails with an `ε`;
  `Reader.bind_ok`, `Reader.pure_ok`, `Reader.require_ok` say when it succeeds, one binding at a time;
* `Reader.Fails P m` : every failure of `m` satisfies `P`, with one rule per way to build a reader;
* `Reads m C w` : the reader `m` accepts exactly the strings that start with `w a` for an `a` with `C a`;
  `Reads.times` lifts it to a counted loop;
* `Appender ε α` : a computation that appends octets and may fail, keeping what it had appended (the convention
  of `dst, err = f(dst, ..)`); it cannot read or change the destination;
* `Appends m bs` : the appender `m` succeeds and appends `bs` (`Appender.bind_appends`);
* `Writes Q m C bs` : the appender `m` succeeds exactly when `C` holds, and then appends exactly `bs`; else it fails with an
  error of `Q`. The rules `Writes.append`, `Writes.seq`, `Writes.failIf`, `Writes.forM` derive it along the program text.
-/

namespace GoSmpp.Lib

/-! ## Readers -/

/-- A reader of octet strings: its state is the unread suffix. -/
abbrev Reader (ε : Type) := StateT Octets (Except ε)

namespace Reader

variable {ε α β : Type}

/-- The reader that fails with `e` unless `p` holds. -/
def require (p : Prop) [Decidable p] (e : ε) : Reader ε Unit := fun s => if p then .ok ((), s) else .error e

/-- Read `n` items in a row. -/
def times (m : Reader ε α) : Nat → Reader ε (List α)
  | 0 => pure []
  | n + 1 => do
    let a ← m
    let l ← times m n
    pure (a :: l)

theorem bind_ok (p : Reader ε α) (f : α → Reader ε β) (s : Octets) (b : β) (r : Octets) :
    (p >>= f) s = .ok (b, r) ↔ ∃ a t, p s = .ok (a, t) ∧ f a t = .ok (b, r) := by
  show (p s >>= fun x => f x.1 x.2) = .ok (b, r) ↔ _
  cases p s with
  | error e => exact ⟨fun h => (by cases h), fun ⟨_, _, h, _⟩ => (by cases h)⟩
  | ok x => exact ⟨fun h => ⟨x.1, x.2, rfl, h⟩, fun ⟨a, t, h, h'⟩ => by cases h; exact h'⟩

theorem pure_ok (a b : α) (s r : Octets) : (pure a : Reader ε α) s = .ok (b, r) ↔ a = b ∧ s = r := by
  show Except.ok (a, s) = .ok (b, r) ↔ _
  simp

theorem require_ok (p : Prop) [Decidable p] (e : ε) (s r : Octets) (u : Unit) :
    (require p e : Reader ε Unit) s = .ok (u, r) ↔ p ∧ s = r := by
  unfold require
  split <;> simp_all

theorem run'_ok (p : Reader ε α) (s : Octets) (a : α) :
    StateT.run' p s = .ok a ↔ ∃ r, p s = .ok (a, r) := by
  show (Prod.fst <$> p s) = .ok a ↔ _
  cases p s with
  | error e => exact ⟨fun h => (by cases h), fun ⟨_, h⟩ => (by cases h)⟩
  | ok x => exact ⟨fun h => by cases h; exact ⟨x.2, rfl⟩, fun ⟨r, h⟩ => by cases h; rfl⟩

theorem run'_error (p : Reader ε α) (s : Octets) (e : ε) : StateT.run' p s = .error e ↔ p s = .error e := by
  show (Prod.fst <$> p s) = .error e ↔ _
  cases p s with
  | error e' => exact ⟨fun h => by cases h; rfl, fun h => by cases h; rfl⟩
  | ok x => exact ⟨fun h => (by cases h), fun h => (by cases h)⟩

/-! ### Failures -/

/-- Every failure of the reader satisfies `P`. -/
def Fails (P : ε → Prop) (m : Reader ε α) : Prop := ∀ s e, m s = .error e → P e

theorem Fails.pure {P : ε → Prop} (a : α) : Fails P (Pure.pure a : Reader ε α) := by
  intro s e h
  cases h

theorem Fails.bind {P : ε → Prop} {m : Reader ε α} {f : α → Reader ε β} (hm : Fails P m)
    (hf : ∀ a, Fails P (f a)) : Fails P (m >>= f) := by
  intro s e h
  change (m s >>= fun x => f x.1 x.2) = .error e at h
  cases hs : m s with
  | error e' =>
    rw [hs] at h
    cases h
    exact hm s _ hs
  | ok x =>
    rw [hs] at h
    exact hf x.1 x.2 e h

theorem Fails.times {P : ε → Prop} {m : Reader ε α} (hm : Fails P m) : ∀ n, Fails P (m.times n)
  | 0 => Fails.pure []
  | n + 1 => hm.bind fun _ => (Fails.times hm n).bind fun _ => Fails.pure _

end Reader

section Reads
variable {ε α : Type} {m : Reader ε α} {C : α → Prop} {w : α → Octets}

/-- The reader accepts exactly the strings that start with the wire form `w a` of an `a` with `C a`, returns that
`a` and leaves the rest. -/
def Reads (m : Reader ε α) (C : α → Prop) (w : α → Octets) : Prop :=
  ∀ s a r, m s = .ok (a, r) ↔ C a ∧ s = w a ++ r

theorem Reads.times (hm : Reads m C w) :
    ∀ n, Reads (m.times n) (fun l => l.length = n ∧ ∀ a ∈ l, C a) (fun l => l.flatMap w)
  | 0 => by
    intro s l r
    rw [Reader.times, Reader.pure_ok]
    constructor
    · rintro ⟨rfl, rfl⟩
      simp
    · rintro ⟨⟨hl, -⟩, rfl⟩
      rw [List.length_eq_zero_iff.mp hl]
      simp
  | n + 1 => by
    intro s l r
    simp only [Reader.times, Reader.bind_ok, Reader.pure_ok, hm _ _ _, Reads.times hm n _ _ _]
    constructor
    · rintro ⟨a, _, ⟨ha, rfl⟩, l, _, ⟨⟨hl, hC⟩, rfl⟩, rfl, rfl⟩
      refine ⟨⟨by rw [List.length_cons, hl], ?_⟩, by simp⟩
      intro b hb
      rcases List.mem_cons.mp hb with rfl | hb
      · exact ha
      · exact hC b hb
    · rintro ⟨⟨hl, hC⟩, rfl⟩
      cases l with
      | nil => cases hl
      | cons a l =>
        exact ⟨a, _, ⟨hC a List.mem_cons_self, by rw [List.flatMap_cons, List.append_assoc]⟩, l, _,
          ⟨⟨Nat.succ.inj hl, fun b hb => hC b (List.mem_cons_of_mem _ hb)⟩, rfl⟩, rfl, rfl⟩

end Reads

/-! ## Except -/

theorem Except.bind_ok {ε α β : Type} (x : Except ε α) (f : α → Except ε β) (b : β) :
    (x >>= f) = .ok b ↔ ∃ a, x = .ok a ∧ f a = .ok b := by
  cases x with
  | error e => exact ⟨fun h => (by cases h), fun ⟨_, h, _⟩ => (by cases h)⟩
  | ok a => exact ⟨fun h => ⟨a, rfl, h⟩, fun ⟨_, h, h'⟩ => by cases h; exact h'⟩

theorem Except.ok_of_map {ε α β : Type} {x : Except ε α} {f : α → β} {b : β} (h : x.map f = .ok b) :
    ∃ a, x = .ok a ∧ f a = b := by
  cases x with
  | error e => nomatch h
  | ok a => exact ⟨a, rfl, Except.ok.inj h⟩

/-! ## Appenders -/

/-- An appender: its result, and the octets it appended, kept also when it fails. -/
def Appender (ε α : Type) := Except ε α × Octets

namespace Appender

variable {ε α β : Type}

instance : Monad (Appender ε) where
  pure a := (.ok a, [])
  bind m f :=
    match m with
    | (.ok a, bs) => ((f a).1, bs ++ (f a).2)
    | (.error e, bs) => (.error e, bs)

def append (bs : Octets) : Appender ε Unit := (.ok (), bs)

/-- Fail, leaving the destination as it is. -/
def fail (e : ε) : Appender ε α := (.error e, [])

/-- Fail with `e` when `p` holds. -/
def failIf (p : Prop) [Decidable p] (e : ε) : Appender ε Unit := if p then fail e else pure ()

/-- Take a value already computed, failing where its computation failed. -/
def ofExcept (x : Except ε α) : Appender ε α := (x, [])

/-- The destination after the appender has run on it, and the error if it failed. -/
def appendTo (m : Appender ε α) (dst : Octets) : Octets × Option ε :=
  match m with
  | (.ok _, bs) => (dst ++ bs, none)
  | (.error e, bs) => (dst ++ bs, some e)

/-- The appender succeeds and appends exactly `bs`. -/
def Appends (m : Appender ε α) (bs : Octets) : Prop := ∃ a, m = (.ok a, bs)

theorem appendTo_fst (m : Appender ε α) (dst : Octets) : (m.appendTo dst).1 = dst ++ m.2 := by
  rcases m with ⟨_ | _, bs⟩ <;> rfl

/-- The error of an appender that fails. -/
def err (m : Appender ε α) : Option ε :=
  match m.1 with
  | .ok _ => none
  | .error e => some e

theorem appendTo_eq (m : Appender ε α) (dst : Octets) : m.appendTo dst = (dst ++ m.2, m.err) := by
  rcases m with ⟨_ | _, bs⟩ <;> rfl

theorem appendTo_none (m : Appender ε α) (dst out : Octets) :
    m.appendTo dst = (out, none) ↔ ∃ bs, m.Appends bs ∧ out = dst ++ bs := by
  rcases m with ⟨e | a, as⟩
  · refine ⟨fun h => (by cases h), ?_⟩
    rintro ⟨bs, ⟨a, h⟩, -⟩
    cases h
  · constructor
    · intro h
      cases h
      exact ⟨as, ⟨a, rfl⟩, rfl⟩
    · rintro ⟨bs, ⟨a', h⟩, rfl⟩
      cases h
      rfl

@[simp] theorem append_appends (bs cs : Octets) : (append bs : Appender ε Unit).Appends cs ↔ cs = bs := by
  constructor
  · rintro ⟨a, h⟩
    cases h
    rfl
  · rintro rfl
    exact ⟨(), rfl⟩

@[simp] theorem pure_appends (a : α) (cs : Octets) : (pure a : Appender ε α).Appends cs ↔ cs = [] := by
  constructor
  · rintro ⟨a, h⟩
    cases h
    rfl
  · rintro rfl
    exact ⟨a, rfl⟩

@[simp] theorem fail_appends (e : ε) (cs : Octets) : (fail e : Appender ε α).Appends cs ↔ False := by
  refine ⟨?_, False.elim⟩
  rintro ⟨a, h⟩
  cases h

theorem bind_appends (m : Appender ε α) (f : α → Appender ε β) (out : Octets) :
    (m >>= f).Appends out ↔ ∃ a bs cs, m = (.ok a, bs) ∧ (f a).Appends cs ∧ out = bs ++ cs := by
  rcases m with ⟨e | a, as⟩
  · constructor
    · rintro ⟨a, h⟩
      cases h
    · rintro ⟨a, bs, cs, h, -⟩
      cases h
  · constructor
    · rintro ⟨b, h⟩
      have h1 : (f a).1 = .ok b := congrArg Prod.fst h
      have h2 : as ++ (f a).2 = out := congrArg Prod.snd h
      exact ⟨a, as, (f a).2, rfl, ⟨b, Prod.ext h1 rfl⟩, h2.symm⟩
    · rintro ⟨a', bs, cs, h, ⟨b, h'⟩, rfl⟩
      cases h
      refine ⟨b, ?_⟩
      show ((f a).1, as ++ (f a).2) = _
      rw [h']

theorem ofExcept_bind_appends (x : Except ε α) (f : α → Appender ε β) (out : Octets) :
    (ofExcept x >>= f).Appends out ↔ ∃ a, x = .ok a ∧ (f a).Appends out := by
  rw [bind_appends]
  constructor
  · rintro ⟨a, bs, cs, h, hf, rfl⟩
    cases h
    exact ⟨a, rfl, hf⟩
  · rintro ⟨a, rfl, hf⟩
    exact ⟨a, [], out, rfl, hf, rfl⟩

end Appender

section Writes
variable {ε α : Type} {Q : ε → Prop} {m n : Appender ε Unit} {C D : Prop} {bs cs : Octets}

/-- The appender succeeds exactly when `C` holds, and then appends exactly `bs`; else it fails with an error of `Q`. -/
structure Writes (Q : ε → Prop) (m : Appender ε Unit) (C : Prop) (bs : Octets) : Prop where
  appends : ∀ out, m.Appends out ↔ C ∧ out = bs
  fails : ∀ e, m.err = some e → Q e

theorem Writes.append (bs : Octets) : Writes Q (Appender.append bs) True bs where
  appends out := by rw [Appender.append_appends, true_and]
  fails _ := nofun

theorem Writes.pure : Writes Q (Pure.pure ()) True [] where
  appends out := by rw [Appender.pure_appends, true_and]
  fails _ := nofun

theorem Writes.seq (hm : Writes Q m C bs) (hn : Writes Q n D cs) : Writes Q (m >>= fun _ => n) (C ∧ D) (bs ++ cs) where
  appends out := by
    rw [Appender.bind_appends]
    constructor
    · rintro ⟨a, as, ns, h, h', rfl⟩
      obtain ⟨hC, rfl⟩ := (hm.appends as).mp ⟨a, h⟩
      obtain ⟨hD, rfl⟩ := (hn.appends ns).mp h'
      exact ⟨⟨hC, hD⟩, rfl⟩
    · rintro ⟨⟨hC, hD⟩, rfl⟩
      obtain ⟨a, h⟩ := (hm.appends bs).mpr ⟨hC, rfl⟩
      exact ⟨a, bs, cs, h, (hn.appends cs).mpr ⟨hD, rfl⟩, rfl⟩
  fails e h := by
    rcases m with ⟨e' | a, as⟩
    · exact hm.fails e h
    · exact hn.fails e h

theorem Writes.failIf (p : Prop) [Decidable p] (e : ε) (he : Q e := by rfl) : Writes Q (Appender.failIf p e) (¬ p) [] := by
  unfold Appender.failIf
  split
  · next h => exact ⟨by simp [h], fun _ he' => by cases he'; exact he⟩
  · next h => exact ⟨by simp [h], fun _ => nofun⟩

theorem Writes.congr (hm : Writes Q m C bs) (hC : C ↔ D) (hbs : bs = cs) : Writes Q m D cs where
  appends out := by rw [hm.appends out, hC, hbs]
  fails := hm.fails

theorem Writes.forM {f : α → Appender ε Unit} {C : α → Prop} {w : α → Octets}
    (hf : ∀ a, Writes Q (f a) (C a) (w a)) : ∀ l : List α, Writes Q (l.forM f) (∀ a ∈ l, C a) (l.flatMap w)
  | [] => Writes.pure.congr (by simp) rfl
  | a :: l => ((hf a).seq (Writes.forM hf l)).congr (by simp) rfl

end Writes

end GoSmpp.Lib
