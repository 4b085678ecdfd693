import CertGuard.Lib.ContentLines
import CertGuard.Lib.Escape
import CertGuard.Server.Routes
import CertGuard.Server.SingleLine

/-!
# The calendar

The entries are exported as events of an iCalendar file, each on the day it expires. What an event
says of its entry is escaped: backslashes, semicolons, commas and line feeds. Carriage returns are
not, and end a line as well.

## Main definitions

* `icsEscape`, `icsEvent`, `buildICS` — the file
* `icsText` — the escaping of RFC 5545 texts
* `dated` — the entries that have events
* `CalendarSound` — the lines of the file are those of the events, and name the entries

## Main results

* `calendarSound_iff` — when the file is sound
* `calendarSound_of_labelsClean` — it is for stores whose labels and hosts are clean
* `calendar_broken` — and not for every store
-/

namespace CertGuard

open Rfc3339

/-! ### Writing it -/

/-- A carriage return is left as it is. -/
def icsEscape (s : List Char) : List Char :=
  s.flatMap fun c =>
    if c = '\\' then ['\\', '\\']
    else if c = ';' then ['\\', ';']
    else if c = ',' then ['\\', ',']
    else if c = '\n' then ['\\', 'n']
    else [c]

/-- A date by the layout `20060102`. -/
def icsDate (t : Int) : List Char :=
  let d := Gregorian.ofDays (dayNumber t)
  appendInt d.year 4 ++ Rfc3339.digits 2 d.month ++ Rfc3339.digits 2 d.day

/-- An instant by the layout `20060102T150405Z`. -/
def icsStamp (t : Int) : List Char :=
  let s := secondOfDay t
  icsDate t ++ 'T' :: Rfc3339.digits 2 (s / 3600) ++ Rfc3339.digits 2 (s / 60 % 60) ++
    Rfc3339.digits 2 (s % 60) ++ ['Z']

/-- What an event tells of the host of its entry. -/
def icsDescription (c : Cert) : List Char :=
  let desc := "Tracked by certguard.".toList
  if c.host = "" then desc
  else icsEscape (c.host.toList ++ ':' :: itoa c.port) ++ " — ".toList ++ desc

/-- The lines of an event. It lasts from the day of the expiry to the day after. -/
def icsEvent (stamp : List Char) (c : Cert) : List (List Char) :=
  let day := icsDate c.expiresAt
  let next := icsDate (c.expiresAt + oneDay)
  let summary := icsEscape c.name.toList ++ " expires".toList
  ["BEGIN:VEVENT".toList,
    "UID:certguard-".toList ++ itoa c.id ++ "@certguard".toList,
    "DTSTAMP:".toList ++ stamp,
    "DTSTART;VALUE=DATE:".toList ++ day,
    "DTEND;VALUE=DATE:".toList ++ next,
    "SUMMARY:".toList ++ summary,
    "DESCRIPTION:".toList ++ icsDescription c,
    "TRANSP:TRANSPARENT".toList,
    "BEGIN:VALARM".toList,
    "TRIGGER:-P7D".toList,
    "ACTION:DISPLAY".toList,
    "DESCRIPTION:".toList ++ summary ++ " in 7 days".toList,
    "END:VALARM".toList,
    "END:VEVENT".toList]

/-- The lines before the events. -/
def icsHeader : List (List Char) :=
  ["BEGIN:VCALENDAR".toList,
    "VERSION:2.0".toList,
    "PRODID:-//certguard//expiry tracker//EN".toList,
    "CALSCALE:GREGORIAN".toList,
    "METHOD:PUBLISH".toList,
    "X-WR-CALNAME:certguard expirations".toList]

/-- The lines of `buildICS`. -/
def icsLines (certs : List Cert) (now : Int) : List (List Char) :=
  let stamp := icsStamp now
  icsHeader ++ (certs.flatMap fun c => if c.expiresAt = 0 then [] else icsEvent stamp c) ++
    ["END:VCALENDAR".toList]

def buildICS (certs : List Cert) (now : Int) : List Char := ContentLines.write (icsLines certs now)

/-! ### What it should be -/

/-- The escaping of texts in RFC 5545. -/
def icsText : Escaping Char where
  mark := '\\'
  code c :=
    if c = '\\' ∨ c = ';' ∨ c = ',' then some c else if c = '\n' then some 'n' else none
  meaning c :=
    if c = '\\' ∨ c = ';' ∨ c = ',' then some c
    else if c = 'n' ∨ c = 'N' then some '\n' else none
  code_mark := by decide
  meaning_code := by
    intro a b h
    split_ifs at h with hself hbreak
    · obtain rfl := Option.some.inj h
      exact if_pos hself
    · obtain rfl := Option.some.inj h
      subst hbreak
      decide

/-- What the lines of a calendar begin with. -/
def icsProperties : List String :=
  ["BEGIN:", "VERSION:", "PRODID:", "CALSCALE:", "METHOD:", "X-WR-CALNAME:", "UID:", "DTSTAMP:",
    "DTSTART;VALUE=DATE:", "DTEND;VALUE=DATE:", "SUMMARY:", "DESCRIPTION:", "TRANSP:", "TRIGGER:",
    "ACTION:", "END:"]

/-- The values of the summaries among lines. -/
def icsSummaries (ls : List (List Char)) : List (List Char) :=
  ls.filterMap fun l =>
    if "SUMMARY:".toList <+: l then some (l.drop "SUMMARY:".toList.length) else none

/-- The entries that have an expiry. -/
def dated (certs : List Cert) : List Cert := certs.filter fun c => c.expiresAt ≠ 0

/-- The lines that are read are as many as there should be, each is a property, and the summaries
are the names of the entries. -/
structure CalendarSound (certs : List Cert) (now : Int) : Prop where
  length : (ContentLines.read (buildICS certs now)).length = 7 + 14 * (dated certs).length
  properties : ∀ l ∈ ContentLines.read (buildICS certs now), ∃ p ∈ icsProperties, p.toList <+: l
  summaries : (icsSummaries (ContentLines.read (buildICS certs now))).map icsText.unescape =
    (dated certs).map fun c => some (c.name.toList ++ " expires".toList)

variable {certs : List Cert} {c : Cert} {s stamp l : List Char} {now t n : Int}

/-! ### Escaping -/

theorem icsEscape_eq (s : List Char) : icsEscape s = icsText.escape s := by
  have hletter : icsText.letter = fun c =>
      if c = '\\' then ['\\', '\\'] else if c = ';' then ['\\', ';']
      else if c = ',' then ['\\', ','] else if c = '\n' then ['\\', 'n'] else [c] := by
    funext c
    by_cases hself : c = '\\' ∨ c = ';' ∨ c = ','
    · rcases hself with rfl | rfl | rfl <;> decide
    · by_cases hbreak : c = '\n'
      · subst hbreak
        decide
      · rw [Escaping.letter_of_none (by simp [icsText, hself, hbreak])]
        simp only [not_or] at hself
        simp [hself, hbreak]
  rw [icsEscape, Escaping.escape, hletter]

/-- A carriage return is written as it is. -/
theorem cr_mem_icsEscape : '\r' ∈ icsEscape s ↔ '\r' ∈ s := by
  rw [icsEscape_eq]
  refine Escaping.mem_escape_iff (by decide) fun b heq => ?_
  have hmeaning := icsText.meaning_code heq
  exact absurd hmeaning (by simp [icsText])

/-- A line feed never is. -/
theorem lf_not_mem_icsEscape : '\n' ∉ icsEscape s := by
  rw [icsEscape_eq]
  refine Escaping.not_mem_escape (by decide) (by decide) fun b heq => ?_
  have hmeaning := icsText.meaning_code heq
  exact absurd hmeaning (by simp [icsText])

theorem unbroken_icsEscape : ContentLines.Unbroken (icsEscape s) ↔ '\r' ∉ s := by
  rw [ContentLines.Unbroken, cr_mem_icsEscape]
  exact and_iff_left lf_not_mem_icsEscape

/-- A summary is read as the name. -/
theorem unescape_summary (s : List Char) :
    icsText.unescape (icsEscape s ++ " expires".toList) = some (s ++ " expires".toList) := by
  have hplain : " expires".toList.all (fun c => (icsText.code c).isNone) = true := by decide
  rw [icsEscape_eq, Escaping.unescape_escape_append,
    Escaping.unescape_of_plain (by simpa using List.all_eq_true.mp hplain)]
  rfl

/-! ### Numbers and dates -/

theorem unbroken_of_isDigit (hs : ∀ c ∈ s, c.isDigit = true) : ContentLines.Unbroken s :=
  ⟨fun hcr => absurd (hs _ hcr) (by decide), fun hlf => absurd (hs _ hlf) (by decide)⟩

theorem unbroken_digits (w n : Nat) : ContentLines.Unbroken (Rfc3339.digits w n) :=
  unbroken_of_isDigit fun _ hc => isDigit_of_mem_digits hc

theorem unbroken_toDigits (n : Nat) : ContentLines.Unbroken (Nat.toDigits 10 n) :=
  unbroken_of_isDigit fun _ hc => Nat.isDigit_of_mem_toDigits (by decide) (by decide) hc

theorem unbroken_minus (hs : ContentLines.Unbroken s) : ContentLines.Unbroken ('-' :: s) :=
  ContentLines.unbroken_cons.mpr ⟨by decide, hs⟩

theorem unbroken_itoa (n : Int) : ContentLines.Unbroken (itoa n) := by
  unfold itoa
  split_ifs
  · exact unbroken_minus (unbroken_toDigits _)
  · exact unbroken_toDigits _

theorem unbroken_appendInt (n : Int) (w : Nat) : ContentLines.Unbroken (appendInt n w) := by
  unfold appendInt
  split_ifs
  · exact unbroken_minus (unbroken_digits _ _)
  · exact unbroken_minus (unbroken_toDigits _)
  · exact unbroken_digits _ _
  · exact unbroken_toDigits _

theorem unbroken_icsDate (t : Int) : ContentLines.Unbroken (icsDate t) := by
  simp only [icsDate, ContentLines.unbroken_append]
  exact ⟨⟨unbroken_appendInt _ _, unbroken_digits _ _⟩, unbroken_digits _ _⟩

theorem unbroken_icsStamp (t : Int) : ContentLines.Unbroken (icsStamp t) := by
  simp only [icsStamp, ContentLines.unbroken_append, ContentLines.unbroken_cons]
  exact ⟨⟨⟨⟨unbroken_icsDate t, by decide, unbroken_digits _ _⟩, unbroken_digits _ _⟩,
    unbroken_digits _ _⟩, by decide⟩

/-! ### Lines -/

theorem unbroken_icsDescription :
    ContentLines.Unbroken (icsDescription c) ↔ '\r' ∉ c.host.toList := by
  unfold icsDescription
  dsimp only
  split_ifs with hhost
  · rw [hhost]
    decide
  · have hport := (unbroken_itoa c.port).1
    rw [ContentLines.unbroken_append, ContentLines.unbroken_append, unbroken_icsEscape]
    simp +decide [hport]

theorem lf_not_mem_icsDescription : '\n' ∉ icsDescription c := by
  unfold icsDescription
  dsimp only
  split_ifs
  · decide
  · simp +decide only [List.mem_append, lf_not_mem_icsEscape, or_self, not_false_eq_true]

/-- The lines of an event, when its entry has no carriage return. -/
theorem unbroken_icsEvent (hstamp : ContentLines.Unbroken stamp) :
    (∀ l ∈ icsEvent stamp c, ContentLines.Unbroken l) ↔
      '\r' ∉ c.name.toList ∧ '\r' ∉ c.host.toList := by
  have hid := unbroken_itoa c.id
  have hday := unbroken_icsDate c.expiresAt
  have hnext := unbroken_icsDate (c.expiresAt + oneDay)
  simp +decide only [icsEvent, List.forall_mem_cons, ContentLines.unbroken_append,
    unbroken_icsEscape, unbroken_icsDescription, hstamp, hid, hday, hnext, true_and, and_true]
  exact ⟨fun h => ⟨h.1, h.2.1⟩, fun h => ⟨h.1, h.2, h.1⟩⟩

/-- None of them has a line feed. -/
theorem lf_not_mem_icsEvent (hstamp : ContentLines.Unbroken stamp) :
    ∀ l ∈ icsEvent stamp c, '\n' ∉ l := by
  have hid := (unbroken_itoa c.id).2
  have hday := (unbroken_icsDate c.expiresAt).2
  have hnext := (unbroken_icsDate (c.expiresAt + oneDay)).2
  simp +decide only [icsEvent, List.forall_mem_cons, List.mem_append, lf_not_mem_icsEscape,
    lf_not_mem_icsDescription, hstamp.2, hid, hday, hnext]

theorem icsProperties_icsEvent : ∀ l ∈ icsEvent stamp c, ∃ p ∈ icsProperties, p.toList <+: l := by
  simp only [icsEvent, List.forall_mem_cons]
  exact ⟨⟨"BEGIN:", by decide, _, rfl⟩, ⟨"UID:", by decide, _, rfl⟩,
    ⟨"DTSTAMP:", by decide, _, rfl⟩, ⟨"DTSTART;VALUE=DATE:", by decide, _, rfl⟩,
    ⟨"DTEND;VALUE=DATE:", by decide, _, rfl⟩, ⟨"SUMMARY:", by decide, _, rfl⟩,
    ⟨"DESCRIPTION:", by decide, _, rfl⟩, ⟨"TRANSP:", by decide, _, rfl⟩,
    ⟨"BEGIN:", by decide, _, rfl⟩, ⟨"TRIGGER:", by decide, _, rfl⟩,
    ⟨"ACTION:", by decide, _, rfl⟩, ⟨"DESCRIPTION:", by decide, _, rfl⟩,
    ⟨"END:", by decide, _, rfl⟩, ⟨"END:", by decide, _, rfl⟩, by simp⟩

theorem icsSummaries_icsEvent :
    icsSummaries (icsEvent stamp c) = [icsEscape c.name.toList ++ " expires".toList] := rfl

/-! ### The file -/

theorem icsLines_eq (certs : List Cert) (now : Int) : icsLines certs now =
    icsHeader ++ (dated certs).flatMap (icsEvent (icsStamp now)) ++ ["END:VCALENDAR".toList] := by
  have hevents :
      (certs.flatMap fun c => if c.expiresAt = 0 then [] else icsEvent (icsStamp now) c) =
        (dated certs).flatMap (icsEvent (icsStamp now)) := by
    induction certs with
    | nil => rfl
    | cons c certs ih =>
      by_cases hzero : c.expiresAt = 0
      · simpa [dated, hzero] using ih
      · simpa [dated, hzero] using ih
  rw [icsLines, hevents]

/-- What holds of the lines around the events holds of all lines if it does of those of the
events. -/
theorem forall_mem_icsLines {P : List Char → Prop}
    (hframe : ∀ l ∈ icsHeader ++ ["END:VCALENDAR".toList], P l) :
    (∀ l ∈ icsLines certs now, P l) ↔
      ∀ c ∈ dated certs, ∀ l ∈ icsEvent (icsStamp now) c, P l := by
  simp only [List.forall_mem_append] at hframe
  rw [icsLines_eq]
  simp only [List.forall_mem_append, List.forall_mem_flatMap]
  exact ⟨fun h => h.1.2, fun h => ⟨⟨hframe.1, h⟩, hframe.2⟩⟩

theorem length_icsLines : (icsLines certs now).length = 7 + 14 * (dated certs).length := by
  have hevents : ∀ cs : List Cert,
      (cs.flatMap (icsEvent (icsStamp now))).length = 14 * cs.length := by
    intro cs
    induction cs with
    | nil => rfl
    | cons c cs ih =>
      have hevent : (icsEvent (icsStamp now) c).length = 14 := rfl
      rw [List.flatMap_cons, List.length_append, hevent, ih, List.length_cons]
      omega
  have hheader : icsHeader.length = 6 := rfl
  rw [icsLines_eq, List.length_append, List.length_append, hevents, hheader, List.length_singleton]
  omega

theorem icsSummaries_append (ls ms : List (List Char)) :
    icsSummaries (ls ++ ms) = icsSummaries ls ++ icsSummaries ms := List.filterMap_append

theorem icsSummaries_icsLines : icsSummaries (icsLines certs now) =
    (dated certs).map fun c => icsEscape c.name.toList ++ " expires".toList := by
  have hevents : ∀ cs : List Cert, icsSummaries (cs.flatMap (icsEvent (icsStamp now))) =
      cs.map fun c => icsEscape c.name.toList ++ " expires".toList := by
    intro cs
    induction cs with
    | nil => rfl
    | cons c cs ih =>
      rw [List.flatMap_cons, icsSummaries_append, icsSummaries_icsEvent, ih]
      rfl
  have hheader : icsSummaries icsHeader = [] := by decide
  have hfooter : icsSummaries ["END:VCALENDAR".toList] = [] := by decide
  rw [icsLines_eq, icsSummaries_append, icsSummaries_append, hevents, hheader, hfooter]
  simp

/-- The lines are read as they were written exactly if no entry has a carriage return. -/
theorem unbroken_icsLines : (∀ l ∈ icsLines certs now, ContentLines.Unbroken l) ↔
    ∀ c ∈ dated certs, '\r' ∉ c.name.toList ∧ '\r' ∉ c.host.toList := by
  rw [forall_mem_icsLines (by decide)]
  exact forall₂_congr fun c _ => unbroken_icsEvent (unbroken_icsStamp now)

theorem lf_not_mem_icsLines : ∀ l ∈ icsLines certs now, '\n' ∉ l :=
  (forall_mem_icsLines (by decide)).mpr fun _ _ => lf_not_mem_icsEvent (unbroken_icsStamp now)

theorem icsProperties_icsLines :
    ∀ l ∈ icsLines certs now, ∃ p ∈ icsProperties, p.toList <+: l :=
  (forall_mem_icsLines (by decide)).mpr fun _ _ => icsProperties_icsEvent

theorem mem_dated : c ∈ dated certs ↔ c ∈ certs ∧ c.expiresAt ≠ 0 := by
  simp [dated]

theorem calendarSound_of_no_cr
    (h : ∀ c ∈ dated certs, '\r' ∉ c.name.toList ∧ '\r' ∉ c.host.toList) :
    CalendarSound certs now := by
  have hread : ContentLines.read (buildICS certs now) = icsLines certs now :=
    ContentLines.read_write (unbroken_icsLines.mpr h)
  refine ⟨?_, ?_, ?_⟩
  · rw [hread, length_icsLines]
  · rw [hread]
    exact icsProperties_icsLines
  · rw [hread, icsSummaries_icsLines, List.map_map]
    exact List.map_congr_left fun c _ => unescape_summary c.name.toList

/-- The calendar is sound exactly if no entry in it has a carriage return in its name or its
host. -/
theorem calendarSound_iff (certs : List Cert) (now : Int) : CalendarSound certs now ↔
    ∀ c ∈ certs, c.expiresAt ≠ 0 → '\r' ∉ c.name.toList ∧ '\r' ∉ c.host.toList := by
  constructor
  · intro hsound c hc hdated
    -- a break would be a line too many
    have hlf : ∀ l ∈ icsLines certs now, '\n' ∉ l := lf_not_mem_icsLines
    have hunbroken := ContentLines.unbroken_of_length_read hlf (by
      rw [length_icsLines]
      exact hsound.length)
    exact unbroken_icsLines.mp hunbroken c (mem_dated.mpr ⟨hc, hdated⟩)
  · intro h
    refine calendarSound_of_no_cr fun c hc => ?_
    obtain ⟨hmem, hdated⟩ := mem_dated.mp hc
    exact h c hmem hdated

/-- The calendar of a store whose labels have no control characters, and whose hosts have no
carriage return, is sound. -/
theorem calendarSound_of_labelsClean {s : Store} (hs : s.LabelsClean)
    (hhosts : ∀ id r, s.certs.get? id = some r → '\r' ∉ r.host.toList) :
    ∃ certs, handleCalendar s = (s, writeJSON 200 (.entry (.calendar certs))) ∧
      CalendarSound certs now := by
  refine ⟨s.list, rfl, calendarSound_of_no_cr fun c hc => ?_⟩
  obtain ⟨r, hrow, -, hread⟩ := Store.mem_list_iff.mp (mem_dated.mp hc).1
  rw [hread]
  exact ⟨(hs.of_row hrow).1.single_line.1, hhosts _ _ hrow⟩

/-- An address that answers is scanned under a name with a carriage return. -/
def injected : Store :=
  (handleScan "" 0 (fun _ _ _ => .ok { sha256 := "aa", notAfter := oneDay }) {}
    (some { target := .ok ("a", 443), name := "web\rATTENDEE:mailto:x" })).1

/-- What follows the carriage return is a line of its own. -/
theorem calendar_broken : ¬ CalendarSound injected.list 0 ∧
    "ATTENDEE:mailto:x expires".toList ∈ ContentLines.read (buildICS injected.list 0) := by
  constructor
  · intro hsound
    exact absurd hsound.length (by decide +kernel)
  · decide +kernel

end CertGuard
