import Mathlib

/-!
# Length-prefixed streams of bytes

A frame is a name and its data, each behind its length in a fixed number of big-endian bytes. A stream
is some frames and what closes it.

Result: `frames_inj`. Two streams that are the same bytes have the same frames, where no name is as
long as the length that either's closing bytes would be read as.
-/

namespace Veridex.Lib

/-- `n.to_bytes(width, "big")`, of a number that fits. -/
def bigEndian : ℕ → ℕ → List UInt8
  | 0, _ => []
  | width + 1, n => bigEndian width (n / 256) ++ [UInt8.ofNat n]

@[simp] theorem length_bigEndian (width n : ℕ) : (bigEndian width n).length = width := by
  induction width generalizing n with
  | zero => rfl
  | succ width ih => rw [bigEndian, List.length_append, ih, List.length_singleton]

theorem bigEndian_inj {width : ℕ} : ∀ {m n : ℕ}, m < 256 ^ width → n < 256 ^ width →
    bigEndian width m = bigEndian width n → m = n := by
  induction width with
  | zero =>
    intro m n hm hn _
    omega
  | succ width ih =>
    intro m n hm hn h
    rw [pow_succ] at hm hn
    rw [bigEndian, bigEndian] at h
    obtain ⟨hhigh, hlow⟩ := List.append_inj' h rfl
    have hdiv := ih (Nat.div_lt_of_lt_mul (by omega)) (Nat.div_lt_of_lt_mul (by omega)) hhigh
    have hmod : m % 256 = n % 256 := by
      have hbyte := congrArg UInt8.toNat (List.singleton_injective hlow)
      rwa [UInt8.toNat_ofNat', UInt8.toNat_ofNat'] at hbyte
    omega

/-- A name and its data. -/
abbrev Frame := List UInt8 × List UInt8

/-- A frame's bytes. -/
def Frame.bytes (f : Frame) : List UInt8 :=
  bigEndian 4 f.1.length ++ (f.1 ++ (bigEndian 8 f.2.length ++ f.2))

/-- Some frames' bytes. -/
def framesBytes (frames : List Frame) : List UInt8 := frames.flatMap Frame.bytes

/-- The frame's name is under a bound, and its data has a length. -/
def Frame.Fits (bound : ℕ) (f : Frame) : Prop := f.1.length < bound ∧ f.2.length < 256 ^ 8

/-- The bytes do not begin with a length under a bound. -/
def Closes (bound : ℕ) (s : List UInt8) : Prop := ∀ n < bound, ∀ t, s ≠ bigEndian 4 n ++ t

theorem closes_nil (bound : ℕ) : Closes bound [] := by
  intro n _ t h
  have hlength := congrArg List.length h
  simp only [List.length_nil, List.length_append, length_bigEndian] at hlength
  omega

theorem closes_of_length {bound n : ℕ} (hle : bound ≤ n) (hn : n < 256 ^ 4) (t : List UInt8) :
    Closes bound (bigEndian 4 n ++ t) := by
  intro m hm t' h
  obtain ⟨hhead, -⟩ := List.append_inj h (by simp)
  have heq := bigEndian_inj hn (by omega) hhead
  omega

/-- A frame is read off the front of a stream. -/
theorem Frame.bytes_append_inj {bound : ℕ} (hbound : bound ≤ 256 ^ 4) {f g : Frame}
    (hf : f.Fits bound) (hg : g.Fits bound) {s t : List UInt8} (h : f.bytes ++ s = g.bytes ++ t) :
    f = g ∧ s = t := by
  simp only [bytes, List.append_assoc] at h
  obtain ⟨hlength, h⟩ := List.append_inj h (by simp)
  have hname := bigEndian_inj (by have := hf.1; omega) (by have := hg.1; omega) hlength
  obtain ⟨hname, h⟩ := List.append_inj h hname
  obtain ⟨hlength, h⟩ := List.append_inj h (by simp)
  have hdata := bigEndian_inj hf.2 hg.2 hlength
  obtain ⟨hdata, h⟩ := List.append_inj h hdata
  exact ⟨Prod.ext hname hdata, h⟩

/-- No closing bytes begin with a frame. -/
theorem Closes.ne_frame {bound : ℕ} {s : List UInt8} (hs : Closes bound s) {f : Frame}
    (hf : f.Fits bound) (t : List UInt8) : s ≠ f.bytes ++ t := by
  rw [Frame.bytes, List.append_assoc]
  exact hs _ hf.1 _

/-- **A stream has one list of frames.** -/
theorem frames_inj {bound : ℕ} (hbound : bound ≤ 256 ^ 4) : ∀ {a b : List Frame} {s t : List UInt8},
    (∀ f ∈ a, f.Fits bound) → (∀ f ∈ b, f.Fits bound) → Closes bound s → Closes bound t →
      framesBytes a ++ s = framesBytes b ++ t → a = b
  | [], [], _, _, _, _, _, _, _ => rfl
  | [], g :: b, s, t, _, hb, hs, _, h => by
    rw [framesBytes, framesBytes, List.flatMap_cons, List.append_assoc] at h
    exact absurd h (hs.ne_frame (hb g List.mem_cons_self) _)
  | f :: a, [], s, t, ha, _, _, ht, h => by
    rw [framesBytes, framesBytes, List.flatMap_cons, List.append_assoc] at h
    exact absurd h.symm (ht.ne_frame (ha f List.mem_cons_self) _)
  | f :: a, g :: b, s, t, ha, hb, hs, ht, h => by
    rw [framesBytes, framesBytes, List.flatMap_cons, List.flatMap_cons, List.append_assoc,
      List.append_assoc] at h
    obtain ⟨rfl, hrest⟩ := Frame.bytes_append_inj hbound (ha f List.mem_cons_self)
      (hb g List.mem_cons_self) h
    rw [frames_inj hbound (fun f hf => ha f (List.mem_cons_of_mem _ hf))
      (fun f hf => hb f (List.mem_cons_of_mem _ hf)) hs ht hrest]

end Veridex.Lib
