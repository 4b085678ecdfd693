import Mathlib.Data.BitVec
import Mathlib.Data.List.TakeWhile

/-!
# Addresses of package net

An address is four bytes or sixteen, and four bytes may also be written as sixteen. The predicates
on addresses first look whether there are four.

## Main definitions

* `NetIP.to4` — the four bytes of an address that has them
* `NetIP.isUnspecified`, `NetIP.isLoopback`, `NetIP.isPrivate`, `NetIP.isMulticast`,
  `NetIP.isLinkLocalMulticast`, `NetIP.isLinkLocalUnicast` — kinds of addresses
* `NetIP.parse` — reading an address

## Main results

* `NetIP.to4_eq_some_iff` — which addresses have four bytes
* `NetIP.length_parse` — every address that is read has sixteen
-/

namespace NetIP

/-- An address of 4 or of 16 bytes. -/
abbrev IP := List (BitVec 8)

/-- A byte of an address. -/
def byte (ip : IP) (i : Nat) : BitVec 8 := ip.getD i 0#8

/-- The prefix of a mapped address. -/
def mappedStart : IP := List.replicate 10 0#8 ++ [0xff#8, 0xff#8]

def ipv4Zero : IP := mappedStart ++ [0#8, 0#8, 0#8, 0#8]

def ipv6Unspecified : IP := List.replicate 16 0#8

def ipv6Loopback : IP := List.replicate 15 0#8 ++ [1#8]

/-- The 4 bytes of an address, which may be mapped. -/
def to4 (ip : IP) : Option IP :=
  if ip.length = 4 then some ip
  else if ip.length = 16 ∧ ip.take 12 = mappedStart then some (ip.drop 12)
  else none

/-- `IP.Equal`: four bytes are the same address as sixteen that have them. -/
def equal (ip x : IP) : Bool :=
  if ip.length = x.length then ip = x
  else if ip.length = 4 ∧ x.length = 16 then x.take 12 = mappedStart ∧ ip = x.drop 12
  else if ip.length = 16 ∧ x.length = 4 then ip.take 12 = mappedStart ∧ ip.drop 12 = x
  else false

/-! ### Kinds of addresses -/

/-- A predicate that looks at four bytes where there are four. -/
def byFamily (four sixteen : IP → Bool) (ip : IP) : Bool :=
  match to4 ip with
  | some ip4 => four ip4
  | none => sixteen ip

def isUnspecified (ip : IP) : Bool := equal ip ipv4Zero || equal ip ipv6Unspecified

def isLoopback : IP → Bool :=
  byFamily (fun ip4 => byte ip4 0 = 127#8) fun ip => equal ip ipv6Loopback

def isPrivate : IP → Bool :=
  byFamily
    (fun ip4 => byte ip4 0 = 10#8 ∨ (byte ip4 0 = 172#8 ∧ byte ip4 1 &&& 0xf0#8 = 16#8) ∨
      (byte ip4 0 = 192#8 ∧ byte ip4 1 = 168#8))
    fun ip => ip.length = 16 ∧ byte ip 0 &&& 0xfe#8 = 0xfc#8

def isMulticast : IP → Bool :=
  byFamily (fun ip4 => byte ip4 0 &&& 0xf0#8 = 0xe0#8)
    fun ip => ip.length = 16 ∧ byte ip 0 = 0xff#8

def isLinkLocalMulticast : IP → Bool :=
  byFamily (fun ip4 => byte ip4 0 = 224#8 ∧ byte ip4 1 = 0#8 ∧ byte ip4 2 = 0#8)
    fun ip => ip.length = 16 ∧ byte ip 0 = 0xff#8 ∧ byte ip 1 &&& 0x0f#8 = 0x02#8

def isLinkLocalUnicast : IP → Bool :=
  byFamily (fun ip4 => byte ip4 0 = 169#8 ∧ byte ip4 1 = 254#8)
    fun ip => ip.length = 16 ∧ byte ip 0 = 0xfe#8 ∧ byte ip 1 &&& 0xc0#8 = 0x80#8

/-! ### Reading -/

/-- The value of a hexadecimal digit. -/
def hexVal (c : Char) : Option Nat :=
  let n := c.toNat
  if c.isDigit then some (n - '0'.toNat)
  else if 'a'.toNat ≤ n ∧ n ≤ 'f'.toNat then some (n - 'a'.toNat + 10)
  else if 'A'.toNat ≤ n ∧ n ≤ 'F'.toNat then some (n - 'A'.toNat + 10)
  else none

/-- One character of `parseIPv4Fields`: the fields before, and the value of the one that is read,
if it has a digit. -/
def fieldStep (st : IP × Option Nat) (c : Char) : Option (IP × Option Nat) :=
  if c.isDigit then
    let d := c.toNat - '0'.toNat
    match st.2 with
    | none => some (st.1, some d)
    | some val =>
      -- no leading zeros
      if val = 0 ∨ 255 < 10 * val + d then none else some (st.1, some (10 * val + d))
  else if c = '.' then
    match st.2 with
    | none => none
    | some val => if st.1.length = 3 then none else some (st.1 ++ [BitVec.ofNat 8 val], none)
  else none

/-- `parseIPv4Fields`: four decimal fields. -/
def parseIPv4Fields (s : List Char) : Option IP :=
  (s.foldlM fieldStep ([], none)).bind fun st =>
    match st.2 with
    | none => none
    | some val => if st.1.length = 3 then some (st.1 ++ [BitVec.ofNat 8 val]) else none

/-- The loop of `parseIPv6`, with room for `n` groups more: the bytes, where among them the `::`
is, and what is left of the text. -/
def parseGroups : Nat → IP → Option Nat → List Char → Option (IP × Option Nat × List Char)
  | 0, ip, ellipsis, s => some (ip, ellipsis, s)
  | n + 1, ip, ellipsis, s =>
    let digits := s.takeWhile fun c => (hexVal c).isSome
    if digits = [] ∨ 4 < digits.length then none
    else
      let acc := digits.foldl (fun acc c => 16 * acc + (hexVal c).getD 0) 0
      let rest := s.drop digits.length
      if rest.head? = some '.' then
        -- the last four bytes may be written as those of an IPv4 address
        if (ellipsis = none ∧ ip.length ≠ 12) ∨ 16 < ip.length + 4 then none
        else (parseIPv4Fields s).map fun fields => (ip ++ fields, ellipsis, [])
      else
        let ip := ip ++ [BitVec.ofNat 8 (acc / 256), BitVec.ofNat 8 acc]
        match rest with
        | [] => some (ip, ellipsis, [])
        | [_] => none
        | c :: d :: s =>
          if c ≠ ':' then none
          else if d ≠ ':' then parseGroups n ip ellipsis (d :: s)
          else if ellipsis ≠ none then none
          else if s = [] then some (ip, some ip.length, [])
          else parseGroups n ip (some ip.length) s

/-- Zeros take the place of the `::`. -/
def expand (ip : IP) (ellipsis : Option Nat) : Option IP :=
  match ellipsis with
  | none => if ip.length < 16 then none else some ip
  | some i =>
    if ip.length < 16 then some (ip.take i ++ List.replicate (16 - ip.length) 0#8 ++ ip.drop i)
    else none

/-- The groups of an address, all of the text. -/
def readGroups (ellipsis : Option Nat) (s : List Char) : Option IP :=
  (parseGroups 8 [] ellipsis s).bind fun r => if r.2.2 = [] then expand r.1 r.2.1 else none

/-- `parseIPv6`, of a text without a zone. -/
def parseIPv6 (s : List Char) : Option IP :=
  match s with
  | [':', ':'] => some ipv6Unspecified
  | ':' :: ':' :: s => readGroups (some 0) s
  | s => readGroups none s

/-- `net.ParseIP`: the first of these characters tells what it is; no zone is read. -/
def parse (s : List Char) : Option IP :=
  match s.find? fun c => c = '.' ∨ c = ':' ∨ c = '%' with
  | some '.' => (parseIPv4Fields s).map fun fields => mappedStart ++ fields
  | some ':' => if '%' ∈ s then none else parseIPv6 s
  | _ => none

variable {ip ip' v4 x : IP} {s rest : List Char} {n : Nat} {ellipsis ellipsis' : Option Nat}

/-! ### Four bytes -/

theorem to4_of_length (h : ip.length = 4) : to4 ip = some ip := if_pos h

theorem take_mapped (v4 : IP) : (mappedStart ++ v4).take 12 = mappedStart := List.take_left' rfl

theorem to4_mapped (h : v4.length = 4) : to4 (mappedStart ++ v4) = some v4 := by
  have hlength : (mappedStart ++ v4).length = 16 := by
    rw [List.length_append, h]
    rfl
  have hdrop : (mappedStart ++ v4).drop 12 = v4 := List.drop_left' rfl
  rw [to4, if_neg (by omega), if_pos ⟨hlength, take_mapped v4⟩, hdrop]

/-- An address has four bytes, or is written as sixteen. -/
theorem to4_eq_some_iff :
    to4 ip = some v4 ↔ v4.length = 4 ∧ (ip = v4 ∨ ip = mappedStart ++ v4) := by
  constructor
  · intro h
    unfold to4 at h
    split_ifs at h with hfour hmapped
    · obtain rfl := Option.some.inj h
      exact ⟨hfour, .inl rfl⟩
    · obtain rfl := Option.some.inj h
      refine ⟨by rw [List.length_drop, hmapped.1], .inr ?_⟩
      rw [← hmapped.2, List.take_append_drop]
  · rintro ⟨hlength, rfl | rfl⟩
    · exact to4_of_length hlength
    · exact to4_mapped hlength

/-- A predicate that looks at four bytes does not tell the two ways to write them apart. -/
theorem byFamily_of_to4 {four sixteen : IP → Bool} (h : to4 ip = some v4) :
    byFamily four sixteen ip = four v4 := by
  rw [byFamily, h]

theorem byFamily_of_none {four sixteen : IP → Bool} (h : to4 ip = none) :
    byFamily four sixteen ip = sixteen ip := by
  rw [byFamily, h]

theorem equal_of_length (h : ip.length = x.length) : equal ip x = true ↔ ip = x := by
  simp [equal, h]

theorem isUnspecified_of_four (h : ip.length = 4) :
    isUnspecified ip = true ↔ ip = List.replicate 4 0#8 := by
  have hmapped : ipv4Zero.take 12 = mappedStart ∧ ipv4Zero.drop 12 = List.replicate 4 0#8 := by
    decide
  have hzeros : ipv6Unspecified.take 12 ≠ mappedStart := by decide
  have hlengths : ipv4Zero.length = 16 ∧ ipv6Unspecified.length = 16 := by decide
  simp [isUnspecified, equal, h, hlengths, hmapped, hzeros]

theorem isUnspecified_of_sixteen (h : ip.length = 16) :
    isUnspecified ip = true ↔ ip = ipv4Zero ∨ ip = ipv6Unspecified := by
  rw [isUnspecified, Bool.or_eq_true, equal_of_length h, equal_of_length h]

/-- Whether an address is unspecified does not depend on how its four bytes are written. -/
theorem isUnspecified_of_to4 (h : to4 ip = some v4) : isUnspecified ip = isUnspecified v4 := by
  obtain ⟨hlength, rfl | rfl⟩ := to4_eq_some_iff.mp h
  · rfl
  · have hmapped : (mappedStart ++ v4).length = 16 := by
      rw [List.length_append, hlength]
      rfl
    have hzeros : mappedStart ++ v4 ≠ ipv6Unspecified := fun heq => by
      have htake := take_mapped v4
      rw [heq] at htake
      exact absurd htake (by decide)
    rw [Bool.eq_iff_iff, isUnspecified_of_sixteen hmapped, isUnspecified_of_four hlength,
      or_iff_left hzeros]
    exact List.append_right_inj mappedStart

/-! ### What is read -/

theorem length_parseIPv4Fields {fields : IP} (h : parseIPv4Fields s = some fields) :
    fields.length = 4 := by
  unfold parseIPv4Fields at h
  obtain ⟨st, -, hst⟩ := Option.bind_eq_some_iff.mp h
  cases hval : st.2 with
  | none => simp [hval] at hst
  | some val =>
    simp only [hval] at hst
    split_ifs at hst with hlength
    obtain rfl := Option.some.inj hst
    simp [hlength]

/-- The loop has room for what it reads. -/
theorem length_of_parseGroups (h : parseGroups n ip ellipsis s = some (ip', ellipsis', rest))
    (hroom : ip.length + 2 * n = 16) : ip'.length ≤ 16 := by
  induction n generalizing ip ellipsis s with
  | zero =>
    obtain ⟨rfl, -⟩ : ip = ip' ∧ _ := by simpa [parseGroups] using h
    omega
  | succ n ih =>
    rw [parseGroups] at h
    dsimp only at h
    split at h
    · exact absurd h (by simp)
    split at h
    · -- an IPv4 address at the end
      split at h
      · exact absurd h (by simp)
      obtain ⟨fields, hfields, heq⟩ := Option.map_eq_some_iff.mp h
      obtain ⟨rfl, -⟩ := Prod.mk.inj heq
      rw [List.length_append, length_parseIPv4Fields hfields]
      omega
    · have hgroup : ∀ a b : BitVec 8, (ip ++ [a, b]).length = ip.length + 2 := fun a b => by
        rw [List.length_append, List.length_cons, List.length_singleton]
      split at h
      · -- the text ends with the group
        obtain ⟨rfl, -⟩ := Prod.mk.inj (Option.some.inj h)
        rw [hgroup]
        omega
      · exact absurd h (by simp)
      · split_ifs at h
        · exact ih h (by rw [hgroup]; omega)
        · obtain ⟨rfl, -⟩ := Prod.mk.inj (Option.some.inj h)
          rw [hgroup]
          omega
        · exact ih h (by rw [hgroup]; omega)

theorem length_expand (hroom : ip.length ≤ 16) (h : expand ip ellipsis = some ip') :
    ip'.length = 16 := by
  cases ellipsis with
  | none =>
    simp only [expand] at h
    split_ifs at h with hshort
    obtain rfl := Option.some.inj h
    omega
  | some i =>
    simp only [expand] at h
    split_ifs at h
    obtain rfl := Option.some.inj h
    rw [List.length_append, List.length_append, List.length_replicate, List.length_take,
      List.length_drop]
    omega

theorem length_readGroups (h : readGroups ellipsis s = some ip) : ip.length = 16 := by
  obtain ⟨⟨bytes, ellipsis, rest⟩, hgroups, hrest⟩ := Option.bind_eq_some_iff.mp h
  dsimp only at hrest
  split_ifs at hrest
  exact length_expand (length_of_parseGroups hgroups rfl) hrest

/-- Every address that is read has sixteen bytes. -/
theorem length_parse (h : parse s = some ip) : ip.length = 16 := by
  unfold parse at h
  split at h
  · obtain ⟨fields, hfields, rfl⟩ := Option.map_eq_some_iff.mp h
    rw [List.length_append, length_parseIPv4Fields hfields]
    rfl
  · split_ifs at h
    unfold parseIPv6 at h
    split at h
    · obtain rfl := Option.some.inj h
      rfl
    · exact length_readGroups h
    · exact length_readGroups h
  · exact absurd h (by simp)

end NetIP
