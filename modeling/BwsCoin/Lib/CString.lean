import Mathlib.Data.List.TakeWhile

/-!
# C strings in fixed arrays

A `char` array read as a C string holds the characters before its first NUL; `strncpy` into an
array of `n` characters copies the characters of its source before the first NUL, at most `n`
of them, and fills the rest of the array with NULs. This module names no particular program.

* `chars_strncpy` — the C string `strncpy` leaves is its source's, cut to `n` characters;
* `strncpy_chars`, `strncpy_strncpy` — `strncpy` reads only the C string of its source, so
  copying a copy changes nothing;
* `chars_append_nul` — a string with an embedded NUL reads as its part before the NUL.
-/

namespace CString

/-- The C string stored in `s`: the characters before the first NUL.
Source: none: infrastructure (`strlen`)
Kind: D -/
def chars (s : List UInt8) : List UInt8 := s.takeWhile (· ≠ 0)

/-- `strncpy(dst, src, n)`: the characters of `src` before its first NUL, at most `n`, then
NULs up to `n` characters.
Source: none: infrastructure (`strncpy`)
Kind: D -/
def strncpy (n : Nat) (src : List UInt8) : List UInt8 :=
  (chars src).take n ++ List.replicate (n - ((chars src).take n).length) 0

/-- Source: none: infrastructure. Kind: L -/
theorem nul_not_mem_chars (s : List UInt8) : (0 : UInt8) ∉ chars s := by
  intro h
  have := List.mem_takeWhile_imp h
  simp at this

/-- Source: none: infrastructure. Kind: L -/
theorem chars_of_nul_not_mem {s : List UInt8} (h : (0 : UInt8) ∉ s) : chars s = s :=
  List.takeWhile_eq_self_iff.2 fun _ hx => decide_eq_true fun hx0 => h (hx0 ▸ hx)

/-- A string with an embedded NUL reads as its part before the NUL.
Source: none: infrastructure
Kind: L -/
theorem chars_append_nul {s : List UInt8} (h : (0 : UInt8) ∉ s) (t : List UInt8) :
    chars (s ++ 0 :: t) = s := by
  have hpos : ∀ x ∈ s, decide (x ≠ 0) = true := fun x hx =>
    decide_eq_true fun hx0 => h (hx0 ▸ hx)
  rw [chars, List.takeWhile_append_of_pos hpos, List.takeWhile_cons_of_neg (by simp),
    List.append_nil]

/-- Source: none: infrastructure. Kind: L -/
@[simp] theorem length_strncpy (n : Nat) (src : List UInt8) : (strncpy n src).length = n := by
  rw [strncpy, List.length_append, List.length_replicate]
  have := List.length_take_le n (chars src)
  omega

/-- The C string `strncpy` leaves in the array is its source's, cut to `n` characters.
Source: none: infrastructure
Kind: L -/
theorem chars_strncpy (n : Nat) (src : List UInt8) :
    chars (strncpy n src) = (chars src).take n := by
  have hnot : (0 : UInt8) ∉ (chars src).take n := fun h =>
    nul_not_mem_chars src (List.mem_of_mem_take h)
  rw [strncpy]
  rcases Nat.eq_zero_or_pos (n - ((chars src).take n).length) with h0 | hpos
  · rw [h0, List.replicate_zero, List.append_nil, chars_of_nul_not_mem hnot]
  · obtain ⟨k, hk⟩ := Nat.exists_eq_add_of_lt hpos
    rw [hk, Nat.zero_add, List.replicate_succ, chars_append_nul hnot]

/-- Source: none: infrastructure. Kind: L -/
theorem chars_chars (s : List UInt8) : chars (chars s) = chars s :=
  chars_of_nul_not_mem (nul_not_mem_chars s)

/-- `strncpy` reads only the C string of its source.
Source: none: infrastructure
Kind: L -/
theorem strncpy_chars (n : Nat) (s : List UInt8) : strncpy n (chars s) = strncpy n s := by
  rw [strncpy, strncpy, chars_chars]

/-- Copying a copy changes nothing.
Source: none: infrastructure
Kind: L -/
theorem strncpy_strncpy (n : Nat) (src : List UInt8) :
    strncpy n (strncpy n src) = strncpy n src := by
  rw [← strncpy_chars n (strncpy n src), chars_strncpy, strncpy, strncpy,
    chars_of_nul_not_mem (fun h => nul_not_mem_chars src (List.mem_of_mem_take h)), List.take_take,
    Nat.min_self]

/-- A source whose C string is shorter than `n` leaves a terminated array.
Source: none: infrastructure
Kind: L -/
theorem nul_mem_strncpy {n : Nat} {src : List UInt8} (h : (chars src).length < n) :
    (0 : UInt8) ∈ strncpy n src := by
  rw [strncpy, List.take_of_length_le (Nat.le_of_lt h)]
  obtain ⟨k, hk⟩ := Nat.exists_eq_add_of_lt (Nat.sub_pos_of_lt h)
  rw [hk, Nat.zero_add, List.replicate_succ]
  exact List.mem_append_right _ List.mem_cons_self

/-- The C string of a terminated array is shorter than the array.
Source: none: infrastructure
Kind: L -/
theorem length_chars_lt {s : List UInt8} (h : (0 : UInt8) ∈ s) : (chars s).length < s.length := by
  have hpre : chars s <+: s := List.takeWhile_prefix _
  rcases Nat.lt_or_eq_of_le hpre.length_le with hlt | heq
  · exact hlt
  · -- a C string as long as the array would be the array, with its NUL
    have hs : chars s = s := hpre.eq_of_length heq
    rw [← hs] at h
    exact absurd h (nul_not_mem_chars s)

end CString
