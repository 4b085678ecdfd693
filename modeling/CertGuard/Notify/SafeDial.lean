import CertGuard.Lib.Cidr
import CertGuard.Lib.HostPort
import CertGuard.Lib.NetIP

/-!
# Where webhooks are sent

Before a notification is sent, the address that is dialed is looked at. It must not be one of the
internal network. An IPv4 address may be written within an IPv6 address in several ways; the guard
knows one of them.

## Main definitions

* `isPublicIP`, `safeControl` — the guard
* `ipv4Blocks`, `ipv6Blocks`, `Internal` — the addresses it is there to block
* `Embedding.Carries` — the ways to write an IPv4 address in an IPv6 address
* `Guarded` — the address is blocked if it is internal, and if what it carries is
* `DialsGuarded` — whatever is dialed is not internal, and carries nothing that is

## Main results

* `isPublicIP_four_iff`, `isPublicIP_sixteen_iff` — which addresses the guard lets through
* `guarded_iff` — and which of them it should
* `guarded_embedded` — some it should not
-/

namespace CertGuard

open NetIP Cidr

/-! ### The guard -/

/-- An address that a notification may be sent to. -/
def isPublicIP (ip : IP) : Bool :=
  if isLoopback ip || isLinkLocalUnicast ip || isLinkLocalMulticast ip || isMulticast ip ||
      isUnspecified ip || isPrivate ip then false
  else
    match to4 ip with
    | none => true
    | some ip4 =>
      if byte ip4 0 = 127#8 then false
      else if byte ip4 0 = 100#8 ∧ byte ip4 1 &&& 0xc0#8 = 64#8 then false
      else if byte ip4 0 = 0#8 then false
      else true

/-- Why a connection is refused. -/
inductive DialError
  /-- `blocked: cannot parse dial address %q`. -/
  | cannotParse (address : List Char)
  /-- `blocked: %q did not resolve to an IP`. -/
  | notAnIP (host : List Char)
  /-- `blocked: %s is a private, loopback, or link-local address; set
  CERTGUARD_ALLOW_PRIVATE_WEBHOOKS=1 to allow internal notification targets`. -/
  | notPublic (ip : IP)
  deriving DecidableEq, Repr

/-- The check of the address a connection is about to be made to. -/
def safeControl (address : List Char) : Except DialError Unit :=
  match HostPort.split address with
  | none => .error (.cannotParse address)
  | some (host, _) =>
    match parse host with
    | none => .error (.notAnIP host)
    | some ip => if isPublicIP ip then .ok () else .error (.notPublic ip)

/-! ### What it is for -/

/-- Loopback, private, link-local, multicast and unspecified addresses, shared address space and
the network of the host itself. -/
def ipv4Blocks : List Block :=
  [⟨[127#8, 0#8, 0#8, 0#8], 8⟩,
    ⟨[10#8, 0#8, 0#8, 0#8], 8⟩,
    ⟨[172#8, 16#8, 0#8, 0#8], 12⟩,
    ⟨[192#8, 168#8, 0#8, 0#8], 16⟩,
    ⟨[169#8, 254#8, 0#8, 0#8], 16⟩,
    ⟨[224#8, 0#8, 0#8, 0#8], 4⟩,
    ⟨[100#8, 64#8, 0#8, 0#8], 10⟩,
    ⟨[0#8, 0#8, 0#8, 0#8], 8⟩]

@[inherit_doc ipv4Blocks]
def ipv6Blocks : List Block :=
  [⟨ipv6Loopback, 128⟩,
    ⟨0xfc#8 :: List.replicate 15 0#8, 7⟩,
    ⟨0xfe#8 :: 0x80#8 :: List.replicate 14 0#8, 10⟩,
    ⟨0xff#8 :: List.replicate 15 0#8, 8⟩,
    ⟨ipv6Unspecified, 128⟩]

/-- An address of the internal network. -/
def Internal (ip : IP) : Prop := ∃ b ∈ ipv4Blocks ++ ipv6Blocks, b.Contains ip

instance (ip : IP) : Decidable (Internal ip) := List.decidableBEx _ (ipv4Blocks ++ ipv6Blocks)

/-- The ways to write an IPv4 address in an IPv6 address. -/
inductive Embedding
  /-- `::ffff:0:0/96`. -/
  | mapped
  /-- `64:ff9b::/96`. -/
  | nat64
  /-- `2002::/16`. -/
  | sixToFour
  deriving DecidableEq, Repr

/-- What comes before the IPv4 address. -/
def Embedding.start : Embedding → IP
  | mapped => mappedStart
  | nat64 => [0#8, 0x64#8, 0xff#8, 0x9b#8] ++ List.replicate 8 0#8
  | sixToFour => [0x20#8, 0x02#8]

/-- The IPv6 address has the IPv4 address after what it starts with. -/
def Embedding.Carries (e : Embedding) (ip v4 : IP) : Prop :=
  ip.length = 16 ∧ v4.length = 4 ∧ ∃ rest, ip = e.start ++ v4 ++ rest

/-- The address is blocked if it is internal, and if an address it carries is blocked. -/
structure Guarded (ip : IP) : Prop where
  internal : Internal ip → isPublicIP ip = false
  carried : ∀ (e : Embedding) v4, e.Carries ip v4 → isPublicIP v4 = false → isPublicIP ip = false

/-- The address that is dialed. -/
def dialed (address : List Char) : Option IP :=
  (HostPort.split address).bind fun hp => parse hp.1

/-- What is dialed is not internal, and carries no address that is. -/
def DialsGuarded (address : List Char) : Prop :=
  safeControl address = .ok () → ∃ ip, dialed address = some ip ∧ ¬ Internal ip ∧
    ∀ (e : Embedding) v4, e.Carries ip v4 → ¬ Internal v4

/-- No IPv4 address of the internal network is written in the address by NAT64 or 6to4. -/
def NoneHidden (ip : IP) : Prop :=
  ∀ (e : Embedding) v4, e ≠ .mapped → e.Carries ip v4 → ¬ Internal v4

variable {ip v4 : IP} {e : Embedding} {a b c d : BitVec 8} {s : List (BitVec 8)}
  {address : List Char}

/-! ### IPv4 addresses -/

theorem exists_four (h : ip.length = 4) : ∃ a b c d, ip = [a, b, c, d] := by
  match ip, h with
  | [a, b, c, d], _ => exact ⟨a, b, c, d, rfl⟩

theorem internal_iff_of_four (h : ip.length = 4) :
    Internal ip ↔ ∃ b ∈ ipv4Blocks, b.Contains ip := by
  have hlength : ∀ b ∈ ipv6Blocks, b.net.length = 16 := by decide
  constructor
  · rintro ⟨b, hb, hcontains⟩
    rcases List.mem_append.mp hb with hb | hb
    · exact ⟨b, hb, hcontains⟩
    · exact absurd hcontains.1 (by rw [h, hlength b hb]; decide)
  · rintro ⟨b, hb, hcontains⟩
    exact ⟨b, List.mem_append_left _ hb, hcontains⟩

theorem internal_four_iff : Internal [a, b, c, d] ↔
    a = 127#8 ∨ a = 10#8 ∨ (a = 172#8 ∧ b &&& 0xf0#8 = 16#8) ∨ (a = 192#8 ∧ b = 168#8) ∨
      (a = 169#8 ∧ b = 254#8) ∨ a &&& 0xf0#8 = 0xe0#8 ∨ (a = 100#8 ∧ b &&& 0xc0#8 = 64#8) ∨
        a = 0#8 := by
  have hmask4 : mask 4 = 0xf0#8 := by decide
  have hmask2 : mask 2 = 0xc0#8 := by decide
  rw [internal_iff_of_four rfl]
  simp only [ipv4Blocks, List.exists_mem_cons_iff, List.not_mem_nil, false_and, exists_false,
    or_false, contains_cons, contains_zero, contains_of_le (show 4 ≤ 8 by decide),
    contains_of_le (show 2 ≤ 8 by decide), hmask4, hmask2]
  simp

/-- What the guard looks at. -/
theorem isPublicIP_eq_true_iff : isPublicIP ip = true ↔
    (isLoopback ip = false ∧ isLinkLocalUnicast ip = false ∧ isLinkLocalMulticast ip = false ∧
      isMulticast ip = false ∧ isUnspecified ip = false ∧ isPrivate ip = false) ∧
    ∀ ip4, to4 ip = some ip4 → byte ip4 0 ≠ 127#8 ∧
      ¬ (byte ip4 0 = 100#8 ∧ byte ip4 1 &&& 0xc0#8 = 64#8) ∧ byte ip4 0 ≠ 0#8 := by
  unfold isPublicIP
  split_ifs with hkinds
  · refine iff_of_false id fun h => ?_
    simp [h.1] at hkinds
  · simp only [Bool.or_eq_true, not_or, Bool.not_eq_true] at hkinds
    obtain ⟨⟨⟨⟨⟨hloopback, hunicast⟩, hlocal⟩, hmulticast⟩, hunspecified⟩, hprivate⟩ := hkinds
    simp only [hloopback, hunicast, hlocal, hmulticast, hunspecified, hprivate, true_and]
    cases to4 ip with
    | none => simp
    | some ip4 =>
      simp only [Option.some.injEq, forall_eq']
      split_ifs <;> simp_all

/-- The guard lets an IPv4 address through exactly if it is not internal. -/
theorem isPublicIP_four_iff (h : ip.length = 4) : isPublicIP ip = true ↔ ¬ Internal ip := by
  obtain ⟨a, b, c, d, rfl⟩ := exists_four h
  have hto4 := to4_of_length h
  have hbyte0 : byte [a, b, c, d] 0 = a := rfl
  have hbyte1 : byte [a, b, c, d] 1 = b := rfl
  -- these two are within other blocks
  have hlocal : a = 224#8 → a &&& 0xf0#8 = 0xe0#8 := by
    rintro rfl
    decide
  have hunspecified : isUnspecified [a, b, c, d] = true → a = 0#8 := fun hzero =>
    (List.cons.inj ((isUnspecified_of_four h).mp hzero)).1
  rw [isPublicIP_eq_true_iff, internal_four_iff]
  simp only [isLoopback, isLinkLocalUnicast, isLinkLocalMulticast, isMulticast, isPrivate,
    byFamily_of_to4 hto4, hto4, hbyte0, hbyte1, Option.some.injEq, forall_eq',
    decide_eq_false_iff_not]
  constructor
  · rintro ⟨⟨hloopback, hunicast, -, hmulticast, -, hprivate⟩, -, hshared, hthis⟩ hinternal
    rcases hinternal with h | h | h | h | h | h | h | h
    · exact hloopback h
    · exact hprivate (.inl h)
    · exact hprivate (.inr (.inl h))
    · exact hprivate (.inr (.inr h))
    · exact hunicast h
    · exact hmulticast h
    · exact hshared h
    · exact hthis h
  · intro hnot
    simp only [not_or] at hnot
    obtain ⟨h127, h10, h172, h192, h169, h224, h100, h0⟩ := hnot
    exact ⟨⟨h127, h169, fun h => h224 (hlocal h.1), h224,
      Bool.eq_false_iff.mpr fun h => h0 (hunspecified h),
      not_or.mpr ⟨h10, not_or.mpr ⟨h172, h192⟩⟩⟩, h127, h100, h0⟩

theorem isPublicIP_four_eq_false_iff (h : ip.length = 4) : isPublicIP ip = false ↔ Internal ip := by
  rw [← Bool.not_eq_true, isPublicIP_four_iff h, not_not]

/-! ### IPv6 addresses -/

theorem internal_iff_of_sixteen (h : ip.length = 16) :
    Internal ip ↔ ∃ b ∈ ipv6Blocks, b.Contains ip := by
  have hlength : ∀ b ∈ ipv4Blocks, b.net.length = 4 := by decide
  constructor
  · rintro ⟨b, hb, hcontains⟩
    rcases List.mem_append.mp hb with hb | hb
    · exact absurd hcontains.1 (by rw [h, hlength b hb]; decide)
    · exact ⟨b, hb, hcontains⟩
  · rintro ⟨b, hb, hcontains⟩
    exact ⟨b, List.mem_append_right _ hb, hcontains⟩

theorem internal_sixteen_iff (h : (a :: b :: s).length = 16) : Internal (a :: b :: s) ↔
    a :: b :: s = ipv6Loopback ∨ a &&& 0xfe#8 = 0xfc#8 ∨ (a = 0xfe#8 ∧ b &&& 0xc0#8 = 0x80#8) ∨
      a = 0xff#8 ∨ a :: b :: s = ipv6Unspecified := by
  have hmask7 : mask 7 = 0xfe#8 := by decide
  have hmask2 : mask 2 = 0xc0#8 := by decide
  have hloopback : Block.Contains ⟨ipv6Loopback, 128⟩ (a :: b :: s) ↔
      a :: b :: s = ipv6Loopback := contains_full
  have hunspecified : Block.Contains ⟨ipv6Unspecified, 128⟩ (a :: b :: s) ↔
      a :: b :: s = ipv6Unspecified := contains_full
  have hlength : s.length = 14 := by simpa using h
  rw [internal_iff_of_sixteen h]
  simp only [ipv6Blocks, List.exists_mem_cons_iff, List.not_mem_nil, false_and, exists_false,
    or_false, hloopback, hunspecified, contains_cons, contains_zero,
    contains_of_le (show 7 ≤ 8 by decide), contains_of_le (show 2 ≤ 8 by decide), hmask7, hmask2]
  simp [hlength]

/-- The guard does not tell the two ways to write four bytes apart. -/
theorem isPublicIP_of_to4 (h : to4 ip = some v4) : isPublicIP ip = isPublicIP v4 := by
  have hv4 : to4 v4 = some v4 := to4_of_length (to4_eq_some_iff.mp h).1
  simp only [isPublicIP, isLoopback, isLinkLocalUnicast, isLinkLocalMulticast, isMulticast,
    isPrivate, byFamily_of_to4 h, byFamily_of_to4 hv4, isUnspecified_of_to4 h, h, hv4]

theorem exists_cons_cons (h : ip.length = 16) : ∃ a b s, ip = a :: b :: s := by
  match ip, h with
  | a :: b :: s, _ => exact ⟨a, b, s, rfl⟩

/-- Of the addresses that are not four bytes, the guard lets those through that are not internal. -/
theorem isPublicIP_iff_of_none (h : ip.length = 16) (hto4 : to4 ip = none) :
    isPublicIP ip = true ↔ ¬ Internal ip := by
  obtain ⟨a, b, s, rfl⟩ := exists_cons_cons h
  have hbyte0 : byte (a :: b :: s) 0 = a := rfl
  have hbyte1 : byte (a :: b :: s) 1 = b := rfl
  have hzero : a :: b :: s ≠ ipv4Zero := fun heq =>
    absurd (heq ▸ hto4 : to4 ipv4Zero = none) (by decide)
  have hloopback : equal (a :: b :: s) ipv6Loopback = true ↔ a :: b :: s = ipv6Loopback :=
    equal_of_length h
  have hunspecified : isUnspecified (a :: b :: s) = true ↔ a :: b :: s = ipv6Unspecified :=
    (isUnspecified_of_sixteen h).trans (or_iff_right hzero)
  rw [isPublicIP_eq_true_iff, internal_sixteen_iff h]
  simp only [isLoopback, isLinkLocalUnicast, isLinkLocalMulticast, isMulticast, isPrivate,
    byFamily_of_none hto4, hto4, hbyte0, hbyte1, h, true_and, decide_eq_true_eq,
    reduceCtorEq, false_implies, implies_true, and_true, ← Bool.not_eq_true, hloopback,
    hunspecified, not_or]
  constructor
  · rintro ⟨hloopback, hunicast, -, hmulticast, hunspecified, hprivate⟩
    exact ⟨hloopback, hprivate, hunicast, hmulticast, hunspecified⟩
  · rintro ⟨hloopback, hprivate, hunicast, hmulticast, hunspecified⟩
    exact ⟨hloopback, hunicast, fun h => hmulticast h.1, hmulticast, hunspecified, hprivate⟩

/-! ### Addresses within addresses -/

theorem carries_mapped_iff (h : ip.length = 16) :
    Embedding.mapped.Carries ip v4 ↔ to4 ip = some v4 := by
  constructor
  · rintro ⟨-, hv4, rest, rfl⟩
    have hmapped : mappedStart.length = 12 := rfl
    obtain rfl : rest = [] := by
      rw [Embedding.start, List.length_append, List.length_append, hmapped, hv4] at h
      exact List.length_eq_zero_iff.mp (by omega)
    rw [List.append_nil]
    exact to4_mapped hv4
  · intro hto4
    obtain ⟨hv4, rfl | rfl⟩ := to4_eq_some_iff.mp hto4
    · omega
    · exact ⟨h, hv4, [], (List.append_nil _).symm⟩

theorem not_internal_of_mapped (h : ip.length = 16) (hto4 : to4 ip = some v4) : ¬ Internal ip := by
  obtain ⟨hv4, rfl | rfl⟩ := to4_eq_some_iff.mp hto4
  · omega
  · have hzeros : mappedStart ++ v4 ≠ ipv6Unspecified ∧ mappedStart ++ v4 ≠ ipv6Loopback := by
      have htake := (take_mapped v4).symm
      constructor
      · exact fun heq => absurd (htake.trans (congrArg (List.take 12) heq)) (by decide)
      · exact fun heq => absurd (htake.trans (congrArg (List.take 12) heq)) (by decide)
    intro hinternal
    rcases (internal_sixteen_iff h).mp hinternal with h | h | h | h | h
    · exact hzeros.2 h
    · exact absurd h (by decide)
    · exact absurd h.1 (by decide)
    · exact absurd h (by decide)
    · exact hzeros.1 h

/-- The guard lets an IPv6 address through exactly if it is not internal, and does not carry an
internal one in the first of the ways. -/
theorem isPublicIP_sixteen_iff (h : ip.length = 16) : isPublicIP ip = true ↔
    ¬ Internal ip ∧ ∀ v4, Embedding.mapped.Carries ip v4 → ¬ Internal v4 := by
  simp only [carries_mapped_iff h]
  cases hto4 : to4 ip with
  | none => simpa using isPublicIP_iff_of_none h hto4
  | some v4 =>
    rw [isPublicIP_of_to4 hto4, isPublicIP_four_iff (to4_eq_some_iff.mp hto4).1]
    simpa using fun _ => not_internal_of_mapped h hto4

/-- An address that begins like none of the blocks is let through. -/
theorem isPublicIP_of_bytes (h : (a :: b :: s).length = 16) (hb : b ≠ 0#8)
    (hprivate : a &&& 0xfe#8 ≠ 0xfc#8) (hunicast : a ≠ 0xfe#8) (hmulticast : a ≠ 0xff#8) :
    isPublicIP (a :: b :: s) = true := by
  have hsecond : ∀ x : IP, a :: b :: s = x → x.getD 1 0#8 ≠ 0#8 := by
    rintro _ rfl
    exact hb
  have hto4 : to4 (a :: b :: s) = none := by
    refine Option.eq_none_iff_forall_ne_some.mpr fun v4 hsome => ?_
    obtain ⟨hv4, heq | heq⟩ := to4_eq_some_iff.mp hsome
    · rw [heq] at h
      omega
    · exact hsecond _ heq rfl
  rw [isPublicIP_iff_of_none h hto4, internal_sixteen_iff h]
  rintro (heq | heq | heq | heq | heq)
  · exact hsecond _ heq rfl
  · exact hprivate heq
  · exact hunicast heq.1
  · exact hmulticast heq
  · exact hsecond _ heq rfl

/-- An address that carries another in one of the other ways is let through. -/
theorem isPublicIP_of_hidden (he : e ≠ .mapped) (h : e.Carries ip v4) : isPublicIP ip = true := by
  obtain ⟨hlength, -, rest, rfl⟩ := h
  cases e with
  | mapped => exact absurd rfl he
  | nat64 =>
    exact isPublicIP_of_bytes (a := 0#8) (b := 0x64#8) hlength (by decide) (by decide) (by decide)
      (by decide)
  | sixToFour =>
    exact isPublicIP_of_bytes (a := 0x20#8) (b := 0x02#8) hlength (by decide) (by decide)
      (by decide) (by decide)

/-! ### What the guard is worth -/

theorem guarded_of_four (h : ip.length = 4) : Guarded ip := by
  refine ⟨(isPublicIP_four_eq_false_iff h).mpr, fun e v4 hcarries => ?_⟩
  exact absurd (h.symm.trans hcarries.1) (by decide)

theorem guarded_iff_of_sixteen (h : ip.length = 16) : Guarded ip ↔ NoneHidden ip := by
  constructor
  · intro hguarded e v4 he hcarries hinternal
    have hpublic := isPublicIP_of_hidden he hcarries
    have hblocked := hguarded.carried e v4 hcarries
      ((isPublicIP_four_eq_false_iff hcarries.2.1).mpr hinternal)
    exact absurd hpublic (by simp [hblocked])
  · intro hnone
    refine ⟨fun hinternal => Bool.eq_false_iff.mpr fun hpublic => ?_, fun e v4 hcarries hv4 => ?_⟩
    · exact ((isPublicIP_sixteen_iff h).mp hpublic).1 hinternal
    · have hinternal := (isPublicIP_four_eq_false_iff hcarries.2.1).mp hv4
      by_cases he : e = .mapped
      · subst he
        exact Bool.eq_false_iff.mpr fun hpublic =>
          ((isPublicIP_sixteen_iff h).mp hpublic).2 v4 hcarries hinternal
      · exact absurd hinternal (hnone e v4 he hcarries)

/-- A connection is let through exactly if what is dialed is an address that is. -/
theorem safeControl_eq_ok_iff :
    safeControl address = .ok () ↔ ∃ ip, dialed address = some ip ∧ isPublicIP ip = true := by
  unfold safeControl dialed
  cases HostPort.split address with
  | none => simp
  | some hp =>
    dsimp only [Option.bind_some]
    cases parse hp.1 with
    | none => simp
    | some ip =>
      simp only [Option.some.injEq, exists_eq_left']
      split_ifs with hpublic <;> simp [hpublic]

theorem dialsGuarded_iff :
    DialsGuarded address ↔ ∀ ip, dialed address = some ip → NoneHidden ip := by
  unfold DialsGuarded
  rw [safeControl_eq_ok_iff]
  constructor
  · intro hguarded ip hip e v4 he hcarries
    obtain ⟨ip', hip', -, hcarried⟩ := hguarded ⟨ip, hip, isPublicIP_of_hidden he hcarries⟩
    obtain rfl := Option.some.inj (hip.symm.trans hip')
    exact hcarried e v4 hcarries
  · rintro hnone ⟨ip, hip, hpublic⟩
    have hlength : ip.length = 16 := by
      obtain ⟨hp, -, hparse⟩ := Option.bind_eq_some_iff.mp hip
      exact length_parse hparse
    obtain ⟨hinternal, hmapped⟩ := (isPublicIP_sixteen_iff hlength).mp hpublic
    refine ⟨ip, hip, hinternal, fun e v4 hcarries => ?_⟩
    by_cases he : e = .mapped
    · subst he
      exact hmapped v4 hcarries
    · exact hnone ip hip e v4 he hcarries

/-- An IPv4 address is always guarded. An IPv6 address is exactly if no internal address is written
in it by NAT64 or 6to4, and so is whatever is dialed. -/
theorem guarded_iff (ip : IP) (address : List Char) :
    (ip.length = 4 ∨ ip.length = 16 → (Guarded ip ↔ NoneHidden ip)) ∧
      (DialsGuarded address ↔ ∀ ip, dialed address = some ip → NoneHidden ip) := by
  refine ⟨fun hlength => ?_, dialsGuarded_iff⟩
  rcases hlength with hlength | hlength
  · refine iff_of_true (guarded_of_four hlength) fun e v4 _ hcarries => ?_
    exact absurd (hlength.symm.trans hcarries.1) (by decide)
  · exact guarded_iff_of_sixteen hlength

/-- `2606:4700:4700::1111`. -/
def publicResolver : IP := [0x26#8, 0x06#8, 0x47#8, 0x00#8, 0x47#8, 0x00#8] ++
  List.replicate 8 0#8 ++ [0x11#8, 0x11#8]

theorem guarded_publicResolver : Guarded publicResolver ∧ isPublicIP publicResolver = true := by
  refine ⟨((guarded_iff publicResolver []).1 (.inr rfl)).mpr ?_, by decide⟩
  rintro e v4 - ⟨-, -, rest, heq⟩
  have hfirst := congrArg (fun ip => byte ip 0) heq
  cases e with
  | mapped => exact absurd (show 0x26#8 = 0#8 from hfirst) (by decide)
  | nat64 => exact absurd (show 0x26#8 = 0#8 from hfirst) (by decide)
  | sixToFour => exact absurd (show 0x26#8 = 0x20#8 from hfirst) (by decide)

/-- The metadata service of a cloud, `169.254.169.254`. -/
def metadataService : IP := [169#8, 254#8, 169#8, 254#8]

/-- It is dialed when it is written by NAT64 or 6to4. -/
theorem guarded_embedded : Internal metadataService ∧
    ¬ Guarded (Embedding.nat64.start ++ metadataService) ∧
    ¬ Guarded (Embedding.sixToFour.start ++ metadataService ++ List.replicate 10 0#8) ∧
    ¬ DialsGuarded "[64:ff9b::169.254.169.254]:80".toList := by
  refine ⟨by decide, fun h => ?_, fun h => ?_, fun h => ?_⟩
  · have hblocked := h.carried .nat64 metadataService ⟨rfl, rfl, [], rfl⟩ (by decide)
    exact absurd hblocked (by decide)
  · have hblocked := h.carried .sixToFour metadataService ⟨rfl, rfl, _, rfl⟩ (by decide)
    exact absurd hblocked (by decide)
  · obtain ⟨ip, hip, -, hcarried⟩ := h (by decide +kernel)
    have hdialed : dialed "[64:ff9b::169.254.169.254]:80".toList =
        some (Embedding.nat64.start ++ metadataService) := by decide +kernel
    obtain rfl := Option.some.inj (hdialed.symm.trans hip)
    exact hcarried .nat64 metadataService ⟨rfl, rfl, [], rfl⟩ (by decide)

end CertGuard
