import Mathlib.Tactic.Common
import Mathlib.Tactic.Ring

/-!
# Base-128 numbers

Little-endian base-128 numbers over bytes: seven bits a byte, the top bit set
on every byte but the last.  The number need not be in its shortest form.
-/

namespace GoSocket.Foundation

/-- The bytes of a base-128 number, and its value. -/
inductive Varint : List UInt8 → Nat → Prop
  | last (b : UInt8) (h : b.toNat < 128) : Varint [b] b.toNat
  | more (b : UInt8) {bs : List UInt8} {n : Nat} (h : 128 ≤ b.toNat)
      (rest : Varint bs n) : Varint (b :: bs) (b.toNat - 128 + 128 * n)

namespace Varint

theorem length_pos {p : List UInt8} {n : Nat} (h : Varint p n) :
    0 < p.length := by
  cases h <;> simp

theorem lt_pow {p : List UInt8} {n : Nat} (h : Varint p n) :
    n < 128 ^ p.length := by
  induction h with
  | last b h => simpa using h
  | more b h rest ih =>
      have hb := b.toNat_lt
      rw [List.length_cons, Nat.pow_succ]
      omega

theorem lt_of_length_le {p : List UInt8} {n k : Nat} (h : Varint p n)
    (hk : p.length ≤ k) : n < 128 ^ k :=
  h.lt_pow.trans_le (Nat.pow_le_pow_right (by omega) hk)

/-- No number is the beginning of another one: the first byte without the top
bit ends it. -/
theorem unique {p q s t : List UInt8} {m n : Nat} (hp : Varint p m)
    (hq : Varint q n) (h : p ++ s = q ++ t) : p = q ∧ m = n ∧ s = t := by
  induction hp generalizing q n with
  | last b hb =>
      cases hq with
      | last c hc => simp_all
      | more c hc rest =>
          simp only [List.cons_append, List.cons.injEq] at h
          obtain ⟨rfl, -⟩ := h
          omega
  | more b hb rest ih =>
      cases hq with
      | last c hc =>
          simp only [List.cons_append, List.cons.injEq] at h
          obtain ⟨rfl, -⟩ := h
          omega
      | more c hc rest' =>
          simp only [List.cons_append, List.cons.injEq] at h
          obtain ⟨rfl, h⟩ := h
          obtain ⟨rfl, rfl, rfl⟩ := ih rest' h
          exact ⟨rfl, rfl, rfl⟩

end Varint

/-- Every byte has its top bit set, so no number ends among them. -/
def AllContinue (bs : List UInt8) : Prop := ∀ b ∈ bs, 128 ≤ b.toNat

theorem AllContinue.nil : AllContinue [] := by simp [AllContinue]

@[simp] theorem AllContinue.cons_iff {b : UInt8} {bs : List UInt8} :
    AllContinue (b :: bs) ↔ 128 ≤ b.toNat ∧ AllContinue bs := by
  simp [AllContinue]

theorem Varint.not_allContinue {p q s t : List UInt8} {n : Nat}
    (hp : Varint p n) (hq : AllContinue q) (h : p ++ s = q ++ t) :
    q.length < p.length := by
  induction hp generalizing q with
  | last b hb =>
      cases q with
      | nil => simp
      | cons c q =>
          simp only [List.cons_append, List.cons.injEq] at h
          obtain ⟨rfl, -⟩ := h
          have := (AllContinue.cons_iff.mp hq).1
          omega
  | more b hb rest ih =>
      cases q with
      | nil => simp
      | cons c q =>
          simp only [List.cons_append, List.cons.injEq] at h
          have := ih (AllContinue.cons_iff.mp hq).2 h.2
          simpa using this

theorem Varint.allContinue_dropLast {p : List UInt8} {n : Nat} (h : Varint p n) :
    AllContinue p.dropLast := by
  induction h with
  | last b hb => exact .nil
  | @more b bs n hb rest ih =>
      have hne : bs ≠ [] := List.ne_nil_of_length_pos rest.length_pos
      rw [List.dropLast_cons_of_ne_nil hne]
      exact AllContinue.cons_iff.mpr ⟨hb, ih⟩

/-- No other form of the number has fewer bytes. -/
structure Varint.Shortest (p : List UInt8) (n : Nat) : Prop where
  varint : Varint p n
  length_le : ∀ q, Varint q n → p.length ≤ q.length

theorem Varint.Shortest.of_bound {p : List UInt8} {n : Nat} (h : Varint p n)
    (hbound : ∀ k, 0 < k → n < 128 ^ k → p.length ≤ k) : Varint.Shortest p n :=
  ⟨h, fun q hq => hbound q.length hq.length_pos hq.lt_pow⟩

/-- How many bytes a reader that takes at most `width` bytes asks a stream for
before it has a number or gives up. -/
def varintReads : Nat → List UInt8 → Nat
  | 0, _ => 0
  | _ + 1, [] => 1
  | width + 1, b :: bs =>
      if b.toNat < 128 then 1 else varintReads width bs + 1

theorem varintReads_le (width : Nat) (bs : List UInt8) :
    varintReads width bs ≤ width := by
  induction width generalizing bs with
  | zero => simp [varintReads]
  | succ width ih =>
      cases bs with
      | nil => simp [varintReads]
      | cons b bs =>
          rw [varintReads]
          have := ih bs
          split <;> omega

theorem Varint.varintReads_append {p : List UInt8} {n : Nat} (hp : Varint p n)
    {width : Nat} (hlen : p.length ≤ width) (s : List UInt8) :
    varintReads width (p ++ s) = p.length := by
  induction hp generalizing width with
  | last b hb =>
      obtain ⟨width, rfl⟩ : ∃ w, width = w + 1 := ⟨width - 1, by simp at hlen; omega⟩
      simp [varintReads, hb]
  | more b hb rest ih =>
      obtain ⟨width, rfl⟩ : ∃ w, width = w + 1 := ⟨width - 1, by simp at hlen; omega⟩
      have : varintReads width (_ ++ s) = _ := ih (by simpa using hlen)
      simp [varintReads, show ¬ b.toNat < 128 by omega, this]

theorem AllContinue.varintReads_append {q : List UInt8} (hq : AllContinue q)
    (s : List UInt8) : varintReads q.length (q ++ s) = q.length := by
  induction q with
  | nil => simp [varintReads]
  | cons b q ih =>
      obtain ⟨hb, hq⟩ := AllContinue.cons_iff.mp hq
      simp [varintReads, show ¬ b.toNat < 128 by omega, ih hq]

theorem AllContinue.varintReads_of_lt {q : List UInt8} (hq : AllContinue q)
    {width : Nat} (hlen : q.length < width) :
    varintReads width q = q.length + 1 := by
  induction q generalizing width with
  | nil =>
      obtain ⟨width, rfl⟩ : ∃ w, width = w + 1 := ⟨width - 1, by simp at hlen; omega⟩
      simp [varintReads]
  | cons b q ih =>
      obtain ⟨hb, hq⟩ := AllContinue.cons_iff.mp hq
      obtain ⟨width, rfl⟩ : ∃ w, width = w + 1 := ⟨width - 1, by simp at hlen; omega⟩
      have : varintReads width q = _ := ih hq (by simpa using hlen)
      simp [varintReads, show ¬ b.toNat < 128 by omega, this]

/-- What `width` bytes of a stream can hold: a whole number, continuation
bytes only, or the end of the stream before either. -/
theorem varint_cases (width : Nat) (bs : List UInt8) :
    (∃ p n s, bs = p ++ s ∧ Varint p n ∧ p.length ≤ width) ∨
      (∃ q s, bs = q ++ s ∧ AllContinue q ∧ q.length = width) ∨
      (AllContinue bs ∧ bs.length < width) := by
  induction width generalizing bs with
  | zero => exact .inr (.inl ⟨[], bs, rfl, .nil, rfl⟩)
  | succ width ih =>
      cases bs with
      | nil => exact .inr (.inr ⟨.nil, by simp⟩)
      | cons b bs =>
          by_cases hb : b.toNat < 128
          · exact .inl ⟨[b], _, bs, rfl, .last b hb, by simp⟩
          have hb : 128 ≤ b.toNat := by omega
          rcases ih bs with ⟨p, n, s, rfl, hp, hl⟩ | ⟨q, s, rfl, hq, hl⟩ | ⟨hq, hl⟩
          · exact .inl ⟨b :: p, _, s, rfl, hp.more b hb, by simpa using hl⟩
          · exact .inr (.inl ⟨b :: q, s, rfl,
              AllContinue.cons_iff.mpr ⟨hb, hq⟩, by simpa using hl⟩)
          · exact .inr (.inr ⟨AllContinue.cons_iff.mpr ⟨hb, hq⟩,
              by simpa using hl⟩)

end GoSocket.Foundation
