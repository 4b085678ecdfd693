import CertGuard.Lib.HostPort
import CertGuard.Lib.Strip
import CertGuard.Model.Channel
import Mathlib.Algebra.Order.Group.Unbundled.Int

/-!
# Targets of scans

A target is a host, a host and a port, or a link to one. Whatever does not split into a host and a
port is taken for a host as it is, and of a port the digits at its beginning are read.

## Main definitions

* `sscanfInt` — the number at the beginning of a text
* `authority`, `parseTarget` — what a target is taken for
* `IsTarget` — what it should be
* `PlainTarget` — the targets that are taken for nothing else

## Main results

* `parseTarget_iff` — which targets are read right
* `parseTarget_wrong` — some that are not
-/

namespace CertGuard

open HostPort

/-! ### Reading -/

/-- `SkipSpace` within a line; `none` where the line ends. -/
def skipSpace : List Char → Option (List Char)
  | [] => some []
  | c :: s => if c = '\n' then none else if isSpace c then skipSpace s else some (c :: s)

/-- `fmt.Sscanf` with `%d`: what follows the number is not looked at. -/
def sscanfInt (s : List Char) : Option Int :=
  (skipSpace s).bind fun s =>
    let negative := s.head? = some '-'
    let s := if s.head? = some '-' ∨ s.head? = some '+' then s.tail else s
    let digits := s.takeWhile Char.isDigit
    let n : Int := Nat.ofDigitChars 10 digits 0
    let n := if negative then -n else n
    if digits = [] then none else if -2 ^ 63 ≤ n ∧ n < 2 ^ 63 then some n else none

/-- `scanner.DefaultPort`. -/
def defaultPort : Int := 443

/-- Why a target is refused. -/
inductive TargetError
  /-- `empty target`. -/
  | emptyTarget
  /-- `invalid port %q`, of the text of the port. -/
  | invalidPort (text : List Char)
  deriving DecidableEq, Repr

/-- What `ParseTarget` takes out of a target before it looks at it. -/
def authority (target : String) : List Char :=
  let target := trimSpace target.toList
  let target := trimPrefix target "https://".toList
  let target := trimPrefix target "http://".toList
  target.takeWhile (· ≠ '/')

/-- A host with a port, or a URL; the port is 443 unless one is given. -/
def parseTarget (target : String) : Except TargetError (String × Int) :=
  let target := authority target
  if target = [] then .error .emptyTarget
  else
    match split target with
    | none => .ok (String.ofList target, defaultPort)
    | some (h, p) =>
      match sscanfInt p with
      | none => .error (.invalidPort p)
      | some pn =>
        if pn ≤ 0 ∨ 65535 < pn then .error (.invalidPort p) else .ok (String.ofList h, pn)

/-! ### What a target is -/

/-- A number that may be a port. -/
def PortNumber (n : Int) : Prop := 1 ≤ n ∧ n ≤ 65535

/-- The digits of a port. -/
structure PortDigits (t : List Char) (port : Int) : Prop where
  ne_nil : t ≠ []
  digits : ∀ c ∈ t, c.isDigit = true
  value : port = Nat.ofDigitChars 10 t 0
  range : PortNumber port

/-- A host and a port that a text may be taken for: the port is the one given, or 443 if none is
given. -/
structure IsTarget (s : List Char) (host : String) (port : Int) : Prop where
  host_ne : host ≠ ""
  host_bare : Bare host.toList
  port : (∃ t, Gives s host.toList t ∧ PortDigits t port) ∨
    (∀ h t, ¬ Gives s h t) ∧ port = defaultPort

/-- Whatever a target is taken for is what it is. -/
def ReadRight (target : String) : Prop :=
  ∀ host port, parseTarget target = .ok (host, port) → IsTarget (authority target) host port

/-- Brackets stand around a host with a port only, and a port that begins with a number is that
number, of a host that is not empty. -/
structure PlainTarget (s : List Char) : Prop where
  brackets : Bare s ∨ ∃ h t, Gives s h t
  port : ∀ h t, Gives s h t → ∀ n, sscanfInt t = some n → PortNumber n →
    h ≠ [] ∧ ∀ c ∈ t, c.isDigit = true

/-- A host name or an address, as it is written without a port. -/
structure HostText (host : String) : Prop where
  ne_empty : host ≠ ""
  bare : Bare host.toList
  no_slash : '/' ∉ host.toList
  no_space : ∀ c ∈ host.toList, isSpace c = false

variable {s h t x y : List Char} {target host ip : String} {port n : Int}

/-! ### Numbers -/

theorem skipSpace_of_head (hs : ∀ c ∈ s.head?, c ≠ '\n' ∧ isSpace c = false) :
    skipSpace s = some s := by
  cases s with
  | nil => rfl
  | cons c s =>
    obtain ⟨hline, hspace⟩ := hs c rfl
    simp [skipSpace, hline, hspace]

theorem sscanfInt_nil : sscanfInt [] = none := by decide

/-- Digits are read as their number. -/
theorem sscanfInt_digits (hne : t ≠ []) (hdigits : ∀ c ∈ t, c.isDigit = true) :
    sscanfInt t = if (Nat.ofDigitChars 10 t 0 : Int) < 2 ^ 63 then
      some (Nat.ofDigitChars 10 t 0 : Int) else none := by
  obtain ⟨d, ds, rfl⟩ := List.exists_cons_of_ne_nil hne
  have hd := hdigits d List.mem_cons_self
  have hskip : skipSpace (d :: ds) = some (d :: ds) := skipSpace_of_head fun c hc => by
    obtain rfl := Option.some.inj hc
    exact ⟨fun heq => absurd (heq ▸ hd) (by decide), isSpace_of_isDigit hd⟩
  have hplus : d ≠ '+' := fun heq => absurd (heq ▸ hd) (by decide)
  have hminus : d ≠ '-' := fun heq => absurd (heq ▸ hd) (by decide)
  have htake : (d :: ds).takeWhile Char.isDigit = d :: ds :=
    List.takeWhile_eq_self_iff.mpr hdigits
  simp only [sscanfInt, hskip, Option.bind_some, List.head?_cons, Option.some.injEq, hplus, hminus,
    or_self, if_false, htake, reduceCtorEq]
  have hlow : (-2 ^ 63 : Int) ≤ Nat.ofDigitChars 10 (d :: ds) 0 := by omega
  simp only [hlow, true_and]

/-- The digits of a port are read as the port. -/
theorem sscanfInt_itoa (hport : PortNumber port) : sscanfInt (itoa port) = some port := by
  obtain ⟨hlow, hhigh⟩ := hport
  have hitoa : itoa port = Nat.toDigits 10 port.natAbs := if_neg (by omega)
  have hvalue : Nat.ofDigitChars 10 (Nat.toDigits 10 port.natAbs) 0 = port.natAbs :=
    Nat.ofDigitChars_toDigits (by decide) (by decide)
  rw [hitoa, sscanfInt_digits Nat.toDigits_ne_nil fun c hc =>
    Nat.isDigit_of_mem_toDigits (by decide) (by decide) hc, hvalue]
  have habs : (port.natAbs : Int) = port := by omega
  rw [habs, if_pos (by omega)]

/-! ### Targets -/

theorem gives_unique {h' t' : List Char} (hs : Gives s h t) (hs' : Gives s h' t') :
    h = h' ∧ t = t' := by
  have heq := (split_eq_some_iff.mpr hs).symm.trans (split_eq_some_iff.mpr hs')
  simpa using heq

theorem parseTarget_of_split_none (hne : authority target ≠ [])
    (hsplit : split (authority target) = none) :
    parseTarget target = .ok (String.ofList (authority target), defaultPort) := by
  simp only [parseTarget, if_neg hne, hsplit]

theorem parseTarget_of_gives (hs : Gives (authority target) h t) :
    parseTarget target = match sscanfInt t with
      | none => .error (.invalidPort t)
      | some pn => if pn ≤ 0 ∨ 65535 < pn then .error (.invalidPort t)
        else .ok (String.ofList h, pn) := by
  simp only [parseTarget, if_neg hs.ne_nil, split_eq_some_iff.mpr hs]

/-- A target is taken for nothing else exactly if it is plain. -/
theorem readRight_iff : ReadRight target ↔ PlainTarget (authority target) := by
  by_cases hnil : authority target = []
  · -- an empty target is refused
    have hgives : ∀ h t, ¬ Gives (authority target) h t := fun _ _ hs => hs.ne_nil hnil
    refine iff_of_true (fun host port hparse => ?_) ⟨.inl (by rw [hnil]; decide), ?_⟩
    · exact absurd hparse (by simp [parseTarget, hnil])
    · exact fun h t hs => absurd hs (hgives h t)
  cases hsplit : split (authority target) with
  | none =>
    -- there is no port, and the host is all of it
    have hgives : ∀ h t, ¬ Gives (authority target) h t := fun h t hs =>
      absurd (split_eq_some_iff.mpr hs) (by simp [hsplit])
    constructor
    · intro hright
      have htarget := hright _ _ (parseTarget_of_split_none hnil hsplit)
      refine ⟨.inl ?_, fun h t hs => absurd hs (hgives h t)⟩
      simpa using htarget.host_bare
    · rintro ⟨hbrackets, -⟩ host port hparse
      rw [parseTarget_of_split_none hnil hsplit] at hparse
      obtain ⟨rfl, rfl⟩ : String.ofList (authority target) = host ∧ defaultPort = port := by
        simpa using hparse
      refine ⟨by simpa using hnil, ?_, .inr ⟨hgives, rfl⟩⟩
      rcases hbrackets with hbare | ⟨h, t, hs⟩
      · simpa using hbare
      · exact absurd hs (hgives h t)
  | some r =>
    obtain ⟨h, t⟩ := r
    have hs := split_eq_some_iff.mp hsplit
    have hparse := parseTarget_of_gives hs
    constructor
    · intro hright
      refine ⟨.inr ⟨h, t, hs⟩, fun h' t' hs' n hn hport => ?_⟩
      obtain ⟨rfl, rfl⟩ := gives_unique hs hs'
      have hrange : ¬ (n ≤ 0 ∨ 65535 < n) := by
        unfold PortNumber at hport
        omega
      simp only [hn, if_neg hrange] at hparse
      obtain ⟨hhost, -, hgiven⟩ := hright _ _ hparse
      refine ⟨by simpa using hhost, ?_⟩
      rcases hgiven with ⟨t', ht', hdigits⟩ | ⟨hnone, -⟩
      · rw [String.toList_ofList] at ht'
        rw [(gives_unique hs ht').2]
        exact hdigits.digits
      · exact absurd hs (hnone h t)
    · rintro ⟨-, hport⟩ host port hok
      rw [hparse] at hok
      cases hscan : sscanfInt t with
      | none => simp [hscan] at hok
      | some n =>
        simp only [hscan] at hok
        split_ifs at hok with hrange
        obtain ⟨rfl, rfl⟩ : String.ofList h = host ∧ n = port := by simpa using hok
        have hnumber : PortNumber n := by
          unfold PortNumber
          omega
        obtain ⟨hhost, hdigits⟩ := hport h t hs n hscan hnumber
        have hne : t ≠ [] := by
          rintro rfl
          exact absurd hscan (by simp [sscanfInt_nil])
        rw [sscanfInt_digits hne hdigits] at hscan
        split_ifs at hscan
        have hvalue : n = Nat.ofDigitChars 10 t 0 := (Option.some.inj hscan).symm
        refine ⟨by simpa using hhost, by simpa using hs.host_bare, .inl ⟨t, ?_, ?_⟩⟩
        · simpa using hs
        · exact ⟨hne, hdigits, hvalue, hnumber⟩

/-! ### Links -/

theorem trimPrefix_append (start s : List Char) : trimPrefix (start ++ s) start = s := by
  rw [trimPrefix, if_pos (List.prefix_append _ _), List.drop_left]

/-- Up to a slash. -/
theorem takeWhile_slash (hx : '/' ∉ x) (hy : ∀ c ∈ y.head?, c = '/') :
    (x ++ y).takeWhile (· ≠ '/') = x := by
  have hkeep : ∀ c ∈ x, (decide (c ≠ '/')) = true := fun c hc =>
    decide_eq_true fun heq => hx (heq ▸ hc)
  rw [List.takeWhile_append_of_pos hkeep]
  cases y with
  | nil => simp
  | cons c y => simp [hy c rfl]

/-- A text does not begin with a scheme if the colon of the scheme is not the last character
before the first slash. -/
theorem trimPrefix_scheme {scheme : List Char} (hscheme : '/' ∉ scheme) (hx : '/' ∉ x)
    (hy : ∀ c ∈ y.head?, c = '/') (hlast : x.getLast? ≠ some ':') :
    trimPrefix (x ++ y) (scheme ++ [':', '/', '/']) = x ++ y := by
  refine if_neg ?_
  rintro ⟨z, hz⟩
  have hcolon : '/' ∉ scheme ++ [':'] := by simp [hscheme]
  have hsame : x = scheme ++ [':'] := by
    rw [← takeWhile_slash hx hy, ← hz]
    have hform : scheme ++ [':', '/', '/'] ++ z = (scheme ++ [':']) ++ '/' :: '/' :: z := by simp
    rw [hform]
    exact takeWhile_slash hcolon (by simp)
  exact hlast (by simp [hsame])

/-- A host, or a host and a port, as it stands in a link. -/
structure LinkText (x : List Char) : Prop where
  no_slash : '/' ∉ x
  head : ∀ c ∈ x.head?, isSpace c = false
  last : ∃ c, x.getLast? = some c ∧ isSpace c = false ∧ c ≠ ':'

/-- Scheme, path and white space are taken away. -/
theorem authority_link {scheme path : String} (hx : LinkText x)
    (hscheme : scheme = "" ∨ scheme = "https://" ∨ scheme = "http://")
    (hpath : ∀ c ∈ path.toList.head?, c = '/') :
    authority (scheme ++ String.ofList x ++ path) = x := by
  obtain ⟨d, hd, hspace, hcolon⟩ := hx.last
  have hlast : x.getLast? ≠ some ':' := by
    rw [hd]
    simpa using hcolon
  have hne : x ≠ [] := by
    rintro rfl
    exact absurd hd (by simp)
  -- white space is taken away from the end of the path
  obtain ⟨y, hy, htrim⟩ : ∃ y : List Char, (∀ c ∈ y.head?, c = '/') ∧
      trimSpace (scheme ++ String.ofList x ++ path).toList = scheme.toList ++ x ++ y := by
    refine ⟨path.toList.rdropWhile isSpace, ?_, ?_⟩
    · intro c hc
      obtain ⟨z, hz⟩ := List.rdropWhile_prefix (p := isSpace) path.toList
      refine hpath c ?_
      rw [← hz]
      cases hdrop : path.toList.rdropWhile isSpace with
      | nil => simp [hdrop] at hc
      | cons e es => simpa [hdrop] using hc
    · refine (strip_eq_iff (p := isSpace) ?_ ?_).mpr
        ⟨[], path.toList.rtakeWhile isSpace, ?_, by simp, fun c => List.mem_rtakeWhile_imp⟩
      · intro c hc
        rcases hscheme with rfl | rfl | rfl
        · refine hx.head c ?_
          obtain ⟨e, es, rfl⟩ := List.exists_cons_of_ne_nil hne
          simpa using hc
        · obtain rfl : 'h' = c := by simpa using hc
          decide
        · obtain rfl : 'h' = c := by simpa using hc
          decide
      · intro c hc
        by_cases hnil : path.toList.rdropWhile isSpace = []
        · rw [hnil, List.append_nil, List.getLast?_append, hd, Option.some_or] at hc
          obtain rfl := Option.some.inj hc
          exact hspace
        · rw [List.getLast?_append, List.getLast?_eq_some_getLast hnil, Option.some_or] at hc
          obtain rfl := Option.some.inj hc
          simpa using List.rdropWhile_last_not isSpace _ hnil
      · simp
  have hkeep : ∀ scheme : List Char, '/' ∉ scheme →
      trimPrefix (x ++ y) (scheme ++ [':', '/', '/']) = x ++ y := fun scheme hscheme =>
    trimPrefix_scheme hscheme hx.no_slash hy hlast
  have hhttps : trimPrefix (x ++ y) "https://".toList = x ++ y := hkeep "https".toList (by decide)
  have hhttp : trimPrefix (x ++ y) "http://".toList = x ++ y := hkeep "http".toList (by decide)
  simp only [authority, htrim]
  rcases hscheme with rfl | rfl | rfl
  · simp only [String.toList_empty, List.nil_append, hhttps, hhttp]
    exact takeWhile_slash hx.no_slash hy
  · rw [List.append_assoc, trimPrefix_append, hhttp]
    exact takeWhile_slash hx.no_slash hy
  · have hother : trimPrefix ("http://".toList ++ x ++ y) "https://".toList =
        "http://".toList ++ x ++ y := if_neg (by simp)
    rw [hother, List.append_assoc, trimPrefix_append]
    exact takeWhile_slash hx.no_slash hy

theorem isDigit_of_mem_itoa (hport : PortNumber port) {c : Char} (hc : c ∈ itoa port) :
    c.isDigit = true := by
  have hitoa : itoa port = Nat.toDigits 10 port.natAbs := by
    unfold PortNumber at hport
    exact if_neg (by omega)
  rw [hitoa] at hc
  exact Nat.isDigit_of_mem_toDigits (by decide) (by decide) hc

theorem itoa_ne_nil (hport : PortNumber port) : itoa port ≠ [] := by
  unfold PortNumber at hport
  rw [itoa, if_neg (by omega)]
  exact Nat.toDigits_ne_nil

/-- A host with a port can stand in a link. -/
theorem HostText.linkText_join (hhost : HostText host) (hport : PortNumber port) :
    LinkText (join host.toList (itoa port)) := by
  have hslash : '/' ∉ itoa port := fun hc => absurd (isDigit_of_mem_itoa hport hc) (by decide)
  have hne : host.toList ≠ [] := by simpa using hhost.ne_empty
  obtain ⟨d, hd⟩ := Option.isSome_iff_exists.mp (List.getLast?_isSome.mpr (itoa_ne_nil hport))
  have hdigit := isDigit_of_mem_itoa hport (List.mem_of_getLast? hd)
  refine ⟨?_, ?_, d, ?_, isSpace_of_isDigit hdigit, fun heq => absurd (heq ▸ hdigit) (by decide)⟩
  · unfold join
    split_ifs <;> simp [hhost.no_slash, hslash]
  · intro c hc
    unfold join at hc
    split_ifs at hc
    · obtain rfl : '[' = c := by simpa using hc
      decide
    · rw [List.head?_append_of_ne_nil _ hne] at hc
      exact hhost.no_space c (List.mem_of_mem_head? hc)
  · unfold join
    split_ifs <;> simp [List.getLast?_append, List.getLast?_cons, hd]

/-- A host with a port is read back, out of a link or alone. -/
theorem parseTarget_join {scheme path : String} (hhost : HostText host) (hport : PortNumber port)
    (hscheme : scheme = "" ∨ scheme = "https://" ∨ scheme = "http://")
    (hpath : ∀ c ∈ path.toList.head?, c = '/') :
    parseTarget (scheme ++ String.ofList (join host.toList (itoa port)) ++ path) =
      .ok (host, port) := by
  have hauthority := authority_link (hhost.linkText_join hport) hscheme hpath
  have hbare : Bare (itoa port) :=
    ⟨fun hc => absurd (isDigit_of_mem_itoa hport hc) (by decide),
      fun hc => absurd (isDigit_of_mem_itoa hport hc) (by decide)⟩
  have hsplit := split_join hhost.bare hbare fun hc =>
    absurd (isDigit_of_mem_itoa hport hc) (by decide)
  have hrange : ¬ (port ≤ 0 ∨ 65535 < port) := by
    unfold PortNumber at hport
    omega
  rw [← hauthority] at hsplit
  rw [parseTarget_of_gives (split_eq_some_iff.mp hsplit), sscanfInt_itoa hport]
  simp only [if_neg hrange, String.ofList_toList]

/-- A host in brackets is taken for a host with brackets. -/
theorem parseTarget_brackets (hhost : HostText host) :
    parseTarget ("[" ++ host ++ "]") = .ok ("[" ++ host ++ "]", defaultPort) := by
  have htext : ("[" ++ host ++ "]").toList = ('[' :: host.toList) ++ [']'] := by simp
  have hclose : ("[" ++ host ++ "]").toList.getLast? = some ']' := by
    rw [htext, List.getLast?_concat]
  have hlink : LinkText ("[" ++ host ++ "]").toList := by
    refine ⟨by simp [hhost.no_slash], fun c hc => ?_, ']', hclose, by decide, by decide⟩
    obtain rfl : '[' = c := by simpa using hc
    decide
  have hauthority : authority ("[" ++ host ++ "]") = ("[" ++ host ++ "]").toList := by
    have hlone : authority ("" ++ String.ofList ("[" ++ host ++ "]").toList ++ "") =
        ("[" ++ host ++ "]").toList := authority_link hlink (.inl rfl) (by simp)
    rwa [String.ofList_toList, String.empty_append, String.append_empty] at hlone
  have hsplit : split (authority ("[" ++ host ++ "]")) = none := by
    cases hsplit : split (authority ("[" ++ host ++ "]")) with
    | none => rfl
    | some r =>
      exfalso
      obtain ⟨h, t⟩ := r
      obtain ⟨hbare, tbare, -, hform⟩ := split_eq_some_iff.mp hsplit
      rw [hauthority] at hform
      -- the text ends with a bracket, and a port does not
      have hlast : ∀ u, ("[" ++ host ++ "]").toList = u ++ ':' :: t → ']' ∈ t := by
        intro u heq
        rw [heq, List.getLast?_append_of_ne_nil _ (by simp)] at hclose
        simpa using List.mem_of_getLast? hclose
      rcases hform with ⟨heq, -⟩ | heq
      · exact tbare.2 (hlast h heq)
      · exact tbare.2 (hlast ('[' :: h ++ [']']) (by rw [heq]; simp))
  have hne : authority ("[" ++ host ++ "]") ≠ [] := by
    rw [hauthority]
    simp
  rw [parseTarget_of_split_none hne hsplit, hauthority, String.ofList_toList]

/-- For every target, what it is taken for is right exactly if it is plain. Every host with a port
is read back, alone or in a link, and no host in brackets is read without them. -/
theorem parseTarget_iff (target : String) :
    (ReadRight target ↔ PlainTarget (authority target)) ∧
    (∀ host port scheme path, HostText host → PortNumber port →
      scheme = "" ∨ scheme = "https://" ∨ scheme = "http://" →
      (∀ c ∈ path.toList.head?, c = '/') →
        parseTarget (scheme ++ String.ofList (join host.toList (itoa port)) ++ path) =
          .ok (host, port)) ∧
    ∀ ip, HostText ip → parseTarget ("[" ++ ip ++ "]") ≠ .ok (ip, defaultPort) := by
  refine ⟨readRight_iff, fun _ _ _ _ => parseTarget_join, fun ip hip hparse => ?_⟩
  rw [parseTarget_brackets hip] at hparse
  have hsame : "[" ++ ip ++ "]" = ip := by simpa using hparse
  have hlength := congrArg (fun s : String => s.toList.length) hsame
  have hlonger : ("[" ++ ip ++ "]").toList.length = ip.toList.length + 2 := by
    simp
  omega

theorem hostText_loopback : HostText "::1" := by
  have hspace : "::1".toList.all (fun c => !isSpace c) = true := by decide
  exact ⟨by decide, by decide, by decide, by simpa using List.all_eq_true.mp hspace⟩

theorem parseTarget_demo :
    ReadRight "https://example.com:8443/x" ∧
      parseTarget ("https://" ++ String.ofList (join "::1".toList (itoa 8443)) ++ "/x") =
        .ok ("::1", 8443) ∧
      parseTarget ("[" ++ "::1" ++ "]") ≠ .ok ("::1", defaultPort) := by
  obtain ⟨hright, hjoin, hbrackets⟩ := parseTarget_iff "https://example.com:8443/x"
  refine ⟨hright.mpr ⟨.inl (by decide), fun h t hs n _ _ => ?_⟩,
    hjoin "::1" 8443 "https://" "/x" hostText_loopback ⟨by decide, by decide⟩ (by decide)
      (fun _ hc => (Option.some.inj hc).symm), hbrackets "::1" hostText_loopback⟩
  have hgives : Gives (authority "https://example.com:8443/x") "example.com".toList
      "8443".toList := split_eq_some_iff.mp (by decide)
  obtain ⟨rfl, rfl⟩ := gives_unique hs hgives
  exact ⟨by decide, List.all_eq_true.mp (by decide)⟩

/-- What follows the digits of a port is not looked at, and brackets stay where they are. -/
theorem parseTarget_wrong :
    ¬ ReadRight "example.com:8443x" ∧
      ¬ ∀ ip, HostText ip → parseTarget ("[" ++ ip ++ "]") = .ok (ip, defaultPort) := by
  constructor
  · rw [readRight_iff]
    rintro ⟨-, hport⟩
    have hgives : Gives (authority "example.com:8443x") "example.com".toList "8443x".toList :=
      split_eq_some_iff.mp (by decide)
    have hdigits := (hport _ _ hgives 8443 (by decide) ⟨by decide, by decide⟩).2
    exact absurd (List.all_eq_true.mpr hdigits) (by decide)
  · intro h
    exact absurd (h "::1" hostText_loopback) (by decide)

end CertGuard
