import Mathlib.Data.BitVec
import Mathlib.Data.List.OfFn

/-!
# Blocks of addresses

An address is a list of bytes, and a block of addresses are those that begin with the same bits as
its network. Where a block begins with whole bytes, the addresses in it begin with these.

## Main definitions

* `Cidr.bits` — the bits of an address, the most significant first
* `Cidr.Block`, `Cidr.Block.Contains` — a network with a length, and the addresses in it
* `Cidr.mask` — a mask for some bits of a byte

## Main results

* `Cidr.contains_cons` — a block that fixes the first byte
* `Cidr.contains_of_le` — a block that fixes some bits of it
-/

namespace Cidr

/-- The bits of a byte. -/
def byteBits (a : BitVec 8) : List Bool := List.ofFn fun i : Fin 8 => a.getMsbD i

/-- The bits of an address. -/
def bits (s : List (BitVec 8)) : List Bool := s.flatMap byteBits

/-- A network, and how many bits of it count. -/
structure Block where
  net : List (BitVec 8)
  len : Nat
  deriving DecidableEq, Repr

/-- The address is as long as the network, and begins like it. -/
def Block.Contains (b : Block) (s : List (BitVec 8)) : Prop :=
  s.length = b.net.length ∧ (bits s).take b.len = (bits b.net).take b.len

instance (b : Block) (s : List (BitVec 8)) : Decidable (b.Contains s) :=
  inferInstanceAs (Decidable (_ ∧ _))

/-- The first bits of a byte. -/
def mask (len : Nat) : BitVec 8 := BitVec.allOnes 8 <<< (8 - len)

variable {a c : BitVec 8} {s net : List (BitVec 8)} {len : Nat}

@[simp] theorem length_byteBits (a : BitVec 8) : (byteBits a).length = 8 := List.length_ofFn

theorem getElem?_byteBits (a : BitVec 8) {i : Nat} (hi : i < 8) :
    (byteBits a)[i]? = some (a.getMsbD i) := by
  rw [List.getElem?_eq_getElem (by simpa using hi)]
  simp only [byteBits, List.getElem_ofFn]

theorem byteBits_injective : Function.Injective byteBits := by
  intro a c h
  have hbits := List.ofFn_injective h
  refine BitVec.eq_of_getMsbD_eq fun i hi => ?_
  exact congrFun hbits ⟨i, hi⟩

theorem bits_cons (a : BitVec 8) (s : List (BitVec 8)) : bits (a :: s) = byteBits a ++ bits s := rfl

theorem take_bits_cons (a : BitVec 8) (s : List (BitVec 8)) (len : Nat) :
    (bits (a :: s)).take (len + 8) = byteBits a ++ (bits s).take len := by
  have hlength := length_byteBits a
  rw [bits_cons, List.take_append, hlength, List.take_of_length_le (by omega),
    Nat.add_sub_cancel]

/-- A block that fixes the first byte. -/
theorem contains_cons : Block.Contains ⟨c :: net, len + 8⟩ (a :: s) ↔
    a = c ∧ Block.Contains ⟨net, len⟩ s := by
  simp only [Block.Contains, take_bits_cons, List.length_cons, Nat.add_right_cancel_iff]
  constructor
  · rintro ⟨hlength, hbits⟩
    obtain ⟨hfirst, hrest⟩ := List.append_inj hbits (by simp)
    exact ⟨byteBits_injective hfirst, hlength, hrest⟩
  · rintro ⟨rfl, hlength, hrest⟩
    exact ⟨hlength, by rw [hrest]⟩

theorem getMsbD_mask (hlen : len ≤ 8) (i : Nat) : (mask len).getMsbD i = decide (i < len) := by
  simp only [mask, BitVec.getMsbD_shiftLeft, BitVec.getMsbD_allOnes, decide_eq_decide]
  omega

/-- The first bits of two bytes agree if the mask picks the same of them. -/
theorem take_byteBits_eq_iff (hlen : len ≤ 8) :
    (byteBits a).take len = (byteBits c).take len ↔ a &&& mask len = c &&& mask len := by
  constructor
  · intro h
    refine BitVec.eq_of_getMsbD_eq fun i hi => ?_
    rw [BitVec.getMsbD_and, BitVec.getMsbD_and, getMsbD_mask hlen]
    by_cases hlt : i < len
    · have hbit := congrArg (fun l => l[i]?) h
      simp only [List.getElem?_take_of_lt hlt, getElem?_byteBits _ hi, Option.some.injEq] at hbit
      rw [hbit]
    · simp [hlt]
  · intro h
    refine List.ext_getElem? fun i => ?_
    by_cases hlt : i < len
    · have hbit := congrArg (fun b => b.getMsbD i) h
      simp only [BitVec.getMsbD_and, getMsbD_mask hlen, hlt, decide_true, Bool.and_true] at hbit
      rw [List.getElem?_take_of_lt hlt, List.getElem?_take_of_lt hlt,
        getElem?_byteBits a (by omega), getElem?_byteBits c (by omega), hbit]
    · rw [List.getElem?_take_eq_none (not_lt.mp hlt), List.getElem?_take_eq_none (not_lt.mp hlt)]

/-- A block that fixes bits of the first byte at most. -/
theorem contains_of_le (hlen : len ≤ 8) : Block.Contains ⟨c :: net, len⟩ (a :: s) ↔
    s.length = net.length ∧ a &&& mask len = c &&& mask len := by
  have ha := length_byteBits a
  have hc := length_byteBits c
  rw [← take_byteBits_eq_iff hlen]
  simp only [Block.Contains, bits_cons, List.length_cons, Nat.add_right_cancel_iff]
  rw [List.take_append_of_le_length (by omega), List.take_append_of_le_length (by omega)]

theorem contains_zero : Block.Contains ⟨net, 0⟩ s ↔ s.length = net.length := by
  simp [Block.Contains]

/-- A block of one address. -/
theorem contains_full : Block.Contains ⟨net, 8 * net.length⟩ s ↔ s = net := by
  induction net generalizing s with
  | nil => simp [contains_zero]
  | cons c net ih =>
    cases s with
    | nil => simp [Block.Contains]
    | cons a s =>
      rw [List.length_cons, Nat.mul_succ, contains_cons, ih, List.cons.injEq]

end Cidr
