import BwsCoin.Lib.ByteCodec

/-!
# Readers of a byte stream

A reader takes bytes from the front of a stream and returns a value with the bytes it left, or
fails with an error of a type `ε`: it is `StateT (List UInt8) (Except ε)`. This module names no
particular program.

* `Reads r bs a` — `r` reads `a` from the bytes `bs`, whatever follows them: the round-trip
  law of a writer and its reader, stated for one value;
* `Reads.bind`, `Reads.pure`, `reads_readMany`, `reads_mapM` — what a sequence of reads reads,
  from what each of its reads reads;
* `Reads.run_bind_error`, `run_bind_of_error` — a sequence fails with the first read that
  fails;
* `Canonical r enc` — every read of `r` consumed exactly the bytes `enc` writes for what it read,
  so `r` accepts only the encodings `enc` produces; `run_bind_eq_ok` and `Canonical.bind_run`
  take a successful sequence of reads apart.
-/

namespace ByteReader

/-- A reader of a byte stream: the bytes in, a value and the bytes left out, or an error.
Source: none: infrastructure
Kind: D -/
abbrev Reader (ε α : Type) := StateT (List UInt8) (Except ε) α

variable {ε α β γ : Type}

/-! ## Readers -/

/-- The next `n` bytes, or the error `eof` when fewer are left.
Source: none: infrastructure
Kind: D -/
def readBytes (eof : ε) (n : Nat) : Reader ε (List UInt8) := fun s =>
  if n ≤ s.length then .ok (s.take n, s.drop n) else .error eof

/-- The next `n` bytes, as a little-endian number.
Source: none: infrastructure
Kind: D -/
def readLE (eof : ε) (n : Nat) : Reader ε Nat := ByteCodec.leValue <$> readBytes eof n

/-- `n` values, read one after the other by `r`.
Source: none: infrastructure
Kind: D -/
def readMany (r : Reader ε α) : Nat → Reader ε (List α)
  | 0 => pure []
  | n + 1 => do
    let a ← r
    let as ← readMany r n
    pure (a :: as)

/-! ## Running a sequence of reads -/

/-- Source: none: infrastructure. Kind: L -/
theorem run_bind_of_ok {x : Reader ε α} {f : α → Reader ε β} {s s' : List UInt8} {a : α}
    (h : x.run s = .ok (a, s')) : (x >>= f).run s = (f a).run s' := by
  rw [StateT.run_bind, h]
  rfl

/-- Source: none: infrastructure. Kind: L -/
theorem run_bind_of_error {x : Reader ε α} {f : α → Reader ε β} {s : List UInt8} {e : ε}
    (h : x.run s = .error e) : (x >>= f).run s = .error e := by
  rw [StateT.run_bind, h]
  rfl

/-- Source: none: infrastructure. Kind: L -/
@[simp] theorem run_throw (e : ε) (s : List UInt8) :
    (throw e : Reader ε α).run s = .error e := rfl

/-- Source: none: infrastructure. Kind: L -/
@[simp] theorem run_lift_error (e : ε) (s : List UInt8) :
    (StateT.lift (.error e) : Reader ε α).run s = .error e := rfl

/-- A sequence of reads that succeeded: its first read succeeded, and the rest succeeded on
what the first left.
Source: none: infrastructure
Kind: L -/
theorem run_bind_eq_ok {x : Reader ε α} {f : α → Reader ε β} {s s' : List UInt8} {b : β}
    (h : (x >>= f).run s = .ok (b, s')) :
    ∃ a s₁, x.run s = .ok (a, s₁) ∧ (f a).run s₁ = .ok (b, s') := by
  rw [StateT.run_bind] at h
  cases hx : x.run s with
  | error e =>
    rw [hx] at h
    cases h
  | ok p =>
    rw [hx] at h
    exact ⟨p.1, p.2, rfl, h⟩

/-- Source: none: infrastructure. Kind: L -/
theorem run_map_eq_ok {x : Reader ε α} {g : α → β} {s s' : List UInt8} {b : β}
    (h : (g <$> x).run s = .ok (b, s')) : ∃ a, x.run s = .ok (a, s') ∧ b = g a := by
  rw [StateT.run_map] at h
  cases hx : x.run s with
  | error e =>
    rw [hx] at h
    cases h
  | ok p =>
    rw [hx] at h
    cases h
    exact ⟨p.1, rfl, rfl⟩

/-- Source: none: infrastructure. Kind: L -/
theorem run_pure_eq_ok {a b : α} {s s' : List UInt8}
    (h : (Pure.pure a : Reader ε α).run s = .ok (b, s')) : b = a ∧ s' = s := by
  cases h
  exact ⟨rfl, rfl⟩

/-- `readBytes` that succeeded took `n` bytes off the front.
Source: none: infrastructure
Kind: L -/
theorem readBytes_eq_ok {eof : ε} {n : Nat} {s s' bs : List UInt8}
    (h : (readBytes eof n).run s = .ok (bs, s')) : bs.length = n ∧ s = bs ++ s' := by
  simp only [StateT.run, readBytes] at h
  split at h
  · cases h
    exact ⟨List.length_take_of_le ‹_›, (List.take_append_drop n s).symm⟩
  · cases h

/-- `readLE` that succeeded took the `n` little-endian bytes of what it read.
Source: none: infrastructure
Kind: L -/
theorem readLE_eq_ok {eof : ε} {n x : Nat} {s s' : List UInt8}
    (h : (readLE eof n).run s = .ok (x, s')) : x < 256 ^ n ∧ s = ByteCodec.leBytes n x ++ s' := by
  obtain ⟨bs, hbs, rfl⟩ := run_map_eq_ok h
  obtain ⟨hlen, rfl⟩ := readBytes_eq_ok hbs
  refine ⟨hlen ▸ ByteCodec.leValue_lt bs, ?_⟩
  rw [← hlen, ByteCodec.leBytes_leValue]

/-! ## What a reader reads -/

/-- `r` reads `a` from the bytes `bs`, and leaves whatever follows them.
Source: none: infrastructure
Kind: D -/
def Reads (r : Reader ε α) (bs : List UInt8) (a : α) : Prop :=
  ∀ rest, r.run (bs ++ rest) = .ok (a, rest)

namespace Reads

variable {r : Reader ε α} {f : α → Reader ε β} {bs bs' : List UInt8} {a : α} {b : β}

/-- Source: none: infrastructure. Kind: L -/
theorem pure (a : α) : Reads (Pure.pure a : Reader ε α) [] a := fun _ => rfl

/-- A read of `a` from `bs` followed by a read of `b` from `bs'` reads `b` from `bs ++ bs'`.
Source: none: infrastructure
Kind: L -/
theorem bind (h : Reads r bs a) (h' : Reads (f a) bs' b) : Reads (r >>= f) (bs ++ bs') b :=
  fun rest => by rw [List.append_assoc, run_bind_of_ok (h _), h' rest]

/-- A read, then a value computed from what it read.
Source: none: infrastructure
Kind: L -/
theorem bind_pure (h : Reads r bs a) (g : α → β) :
    Reads (r >>= fun x => Pure.pure (g x)) bs (g a) := fun rest => by
  rw [run_bind_of_ok (h rest)]
  rfl

/-- Source: none: infrastructure. Kind: L -/
theorem map (g : α → β) (h : Reads r bs a) : Reads (g <$> r) bs (g a) := fun rest => by
  rw [StateT.run_map, h rest]
  rfl

/-- Source: none: infrastructure. Kind: L -/
theorem lift_ok (a : α) : Reads (StateT.lift (.ok a) : Reader ε α) [] a := fun _ => rfl

/-- A read consumes exactly the bytes it reads.
Source: none: infrastructure
Kind: L -/
theorem run_eq (h : Reads r bs a) : r.run bs = .ok (a, []) := by
  simpa using h []

/-- After the bytes `r` reads, a continuation that fails fails the sequence.
Source: none: infrastructure
Kind: L -/
theorem run_bind_error {rest : List UInt8} {e : ε} (h : Reads r bs a)
    (h' : (f a).run rest = .error e) : (r >>= f).run (bs ++ rest) = .error e := by
  rw [run_bind_of_ok (h rest), h']

/-- Source: none: infrastructure. Kind: L -/
theorem of_eq {bs' : List UInt8} {a' : α} (h : Reads r bs a) (hbs : bs = bs') (ha : a = a') :
    Reads r bs' a' := hbs ▸ ha ▸ h

/-- Two encodings that `r` reads, each followed by more bytes, are equal as byte strings only if
they read the same value and what follows is equal.
Source: none: infrastructure
Kind: L -/
theorem append_inj {bs' rest rest' : List UInt8} {a' : α} (h : Reads r bs a) (h' : Reads r bs' a')
    (heq : bs ++ rest = bs' ++ rest') : a = a' ∧ rest = rest' := by
  have hrun := h rest
  rw [heq, h' rest'] at hrun
  cases hrun
  exact ⟨rfl, rfl⟩

end Reads

/-! ## Readers that accept only canonical encodings -/

/-- Every read of `r` consumed exactly the bytes `enc` writes for the value it read: the
converse of `Reads`, which says that `r` accepts nothing but the encodings of `enc`.
Source: none: infrastructure
Kind: D -/
def Canonical (r : Reader ε α) (enc : α → List UInt8) : Prop :=
  ∀ s a s', r.run s = .ok (a, s') → s = enc a ++ s'

/-- A sequence of reads that succeeded: the first consumed the encoding of what it read.
Source: none: infrastructure
Kind: L -/
theorem Canonical.bind_run {r : Reader ε α} {enc : α → List UInt8} {f : α → Reader ε β}
    {s s' : List UInt8} {b : β} (hr : Canonical r enc) (h : (r >>= f).run s = .ok (b, s')) :
    ∃ a s₁, s = enc a ++ s₁ ∧ (f a).run s₁ = .ok (b, s') := by
  obtain ⟨a, s₁, ha, hf⟩ := run_bind_eq_ok h
  exact ⟨a, s₁, hr s a s₁ ha, hf⟩

/-- Source: none: infrastructure. Kind: L -/
theorem Canonical.map {r : Reader ε α} {enc : α → List UInt8} {g : α → β} {enc' : β → List UInt8}
    (hr : Canonical r enc) (henc : ∀ a, enc' (g a) = enc a) : Canonical (g <$> r) enc' := by
  intro s b s' h
  obtain ⟨a, ha, rfl⟩ := run_map_eq_ok h
  rw [henc]
  exact hr s a s' ha

/-- `readBytes` reads back any bytes, by their number.
Source: none: infrastructure
Kind: L -/
theorem reads_readBytes (eof : ε) (bs : List UInt8) : Reads (readBytes eof bs.length) bs bs :=
  fun rest => by simp [StateT.run, readBytes]

/-- A number below `256 ^ n`, written in `n` little-endian bytes, reads back.
Source: none: infrastructure
Kind: L -/
theorem reads_readLE (eof : ε) {n x : Nat} (h : x < 256 ^ n) :
    Reads (readLE eof n) (ByteCodec.leBytes n x) x := by
  have hbytes := reads_readBytes eof (ByteCodec.leBytes n x)
  rw [ByteCodec.length_leBytes] at hbytes
  have hmap := hbytes.map ByteCodec.leValue
  rwa [ByteCodec.leValue_leBytes, Nat.mod_eq_of_lt h] at hmap

/-- Values written one after the other read back by as many reads of `r`, each read giving
`g` of the value written.
Source: none: infrastructure
Kind: L -/
theorem reads_readMany {r : Reader ε α} {enc : γ → List UInt8} {g : γ → α} :
    ∀ {cs : List γ}, (∀ c ∈ cs, Reads r (enc c) (g c)) →
      Reads (readMany r cs.length) (cs.flatMap enc) (cs.map g)
  | [], _ => Reads.pure []
  | c :: cs, h => by
    have hrest := reads_readMany fun x hx => h x (List.mem_cons_of_mem c hx)
    rw [List.length_cons, readMany, List.flatMap_cons, List.map_cons]
    refine (h c List.mem_cons_self).bind ?_
    refine Reads.of_eq (hrest.bind ?_) (List.append_nil _) rfl
    exact Reads.pure _

/-- A read for each of the inputs `p c`, in order, reads back what was written for each `c`.
Source: none: infrastructure
Kind: L -/
theorem reads_mapM {f : α → Reader ε β} {p : γ → α} {enc : γ → List UInt8} {g : γ → β} :
    ∀ {cs : List γ}, (∀ c ∈ cs, Reads (f (p c)) (enc c) (g c)) →
      Reads ((cs.map p).mapM f) (cs.flatMap enc) (cs.map g)
  | [], _ => Reads.pure []
  | c :: cs, h => by
    have hrest := reads_mapM fun x hx => h x (List.mem_cons_of_mem c hx)
    rw [List.map_cons, List.mapM_cons, List.flatMap_cons, List.map_cons]
    refine (h c List.mem_cons_self).bind ?_
    refine Reads.of_eq (hrest.bind ?_) (List.append_nil _) rfl
    exact Reads.pure _

end ByteReader
