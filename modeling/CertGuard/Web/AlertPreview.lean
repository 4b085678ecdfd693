import CertGuard.Scheduler.Daily
import CertGuard.Server.AccountRequests
import CertGuard.Web.Subscriptions

/-!
# The alert preview

The dashboard shows which alerts are coming. It counts down to thresholds of its own, the same
for every entry, and looks at the nearest only; it reads subscriptions itself.

## Main definitions

* `previewRow`, `renderAlertPreview` — what the page shows
* `NextAlert` — the next day on which the user is alerted about an entry
* `PreviewPredicts` — the page shows that alert, and no other
* `PreviewAgrees` — the entries and channels for which it does

## Main results

* `mem_renderAlertPreview` — each row is that of an entry
* `previewPredicts_iff` — the preview is right exactly for these
* `preview_wrong` — it announces an alert about a domain that is never sent
-/

namespace CertGuard

/-! ### The page -/

/-- A coming alert as the page shows it. -/
structure PreviewRow where
  name : String
  inDays : Int
  t : Int
  chans : List ChannelType
  deriving DecidableEq, Repr

/-- `THR`: the thresholds the page knows. -/
def previewThresholds : List Int := [30, 7, 3]

/-- `WINDOW`: how many days the page looks ahead. -/
def previewWindow : Int := 14

/-- `chans`: the types of the channels that the page finds to want a threshold. -/
def previewChans (dashChannels : List ChannelBody) (t : Int) : List ChannelType :=
  ((dashChannels.filter fun ch => channelWantsThreshold ch.thresholds t).map
    ChannelBody.type).eraseDups

/-- The row of an entry, if it has one. -/
def previewRow (dashChannels : List ChannelBody) (it : Cert × Int) : Option PreviewRow :=
  let D := it.2
  if D ≤ 0 then none
  else
    match previewThresholds.find? fun x => x < D with
    | none => none
    | some t =>
      let inDays := D - t
      if inDays < 0 ∨ previewWindow < inDays then none
      else
        let chans := previewChans dashChannels t
        if chans = [] then none
        else some { name := it.1.name, inDays := inDays, t := t, chans := chans }

/-- The coming alerts of all entries, the soonest first. -/
def renderAlertPreview (dashChannels : List ChannelBody) (currentItems : List (Cert × Int)) :
    List PreviewRow :=
  if dashChannels = [] then []
  else (currentItems.filterMap (previewRow dashChannels)).mergeSort fun a b => a.inDays ≤ b.inDays

/-! ### The alert that is coming -/

/-- The next day, of those ahead, on which one of the channels is alerted about an entry. -/
structure NextAlert (channels : List Channel) (s : Store) (now : Int) (c : Cert) (day : Nat)
    (t : Int) : Prop where
  pos : 0 < day
  within : (day : Int) ≤ previewWindow
  alerts : AlertsOn channels s now c day t
  first : ∀ day', 0 < day' → day' < day → ∀ t', ¬ AlertsOn channels s now c day' t'

/-- What the page of a user shows about an entry: its channels and days are those served. -/
def shownRow (s : Store) (userId now : Int) (c : Cert) : Option PreviewRow :=
  previewRow ((s.listChannels userId).map Channel.redacted) (c, c.daysRemaining now)

/-- The page shows the next alert about an entry that goes to the user, if there is one. -/
structure PreviewPredicts (s : Store) (userId now : Int) (c : Cert) : Prop where
  shown : ∀ row, shownRow s userId now c = some row →
    ∃ day : Nat, row.inDays = day ∧ NextAlert (s.listChannels userId) s now c day row.t
  missed : ∀ (day : Nat) (t : Int), 0 < day → (day : Int) ≤ previewWindow →
    AlertsOn (s.listChannels userId) s now c day t → (shownRow s userId now c).isSome

/-- The threshold the page counts down to. -/
def previewRung (D : Int) : Option Int :=
  (previewThresholds.find? fun x => x < D).filter fun t => D - t ≤ previewWindow

/-- The user has a channel that is enabled and subscribes to a threshold that is still ahead. -/
structure Subscribed (s : Store) (userId : Int) (c : Cert) (t : Int) : Prop where
  ahead : c.lastNotifiedThreshold = 0 ∨ t < c.lastNotifiedThreshold
  wants : ∃ ch ∈ s.listChannels userId, ch.enabled = true ∧ ch.wantsThreshold t = true

/-- The entries and channels for which the page looks at the right threshold. -/
structure PreviewAgrees (s : Store) (userId now : Int) (c : Cert) : Prop where
  /-- The page finds a subscription to what it counts down to exactly if this is a threshold of
  the entry, and the user subscribes to it. -/
  next : ∀ t, previewRung (c.daysRemaining now) = some t →
    ((∃ ch ∈ s.listChannels userId, channelWantsThreshold ch.thresholds t = true) ↔
      t ∈ ladder c ∧ Subscribed s userId c t)
  /-- A threshold the user subscribes to is not near unless the one it counts down to is such. -/
  skipped : ∀ t ∈ ladder c, t < c.daysRemaining now → c.daysRemaining now - t ≤ previewWindow →
    Subscribed s userId c t →
      ∃ u ∈ ladder c, previewRung (c.daysRemaining now) = some u ∧ Subscribed s userId c u

variable {s : Store} {c : Cert} {userId now t D : Int} {day : Nat} {row : PreviewRow}
variable {dashChannels : List ChannelBody} {currentItems : List (Cert × Int)} {it : Cert × Int}

/-! ### Rows -/

theorem previewRung_eq_some_iff : previewRung D = some t ↔
    t < D ∧ D - t ≤ previewWindow ∧ (t = 30 ∨ t = 7 ∧ D ≤ 30 ∨ t = 3 ∧ D ≤ 7) := by
  simp only [previewRung, previewThresholds, previewWindow, List.find?_cons, List.find?_nil]
  split
  · simp_all
    omega
  · split
    · simp_all
      omega
    · split <;> simp_all <;> omega

/-- An entry has a row exactly if the page counts down to a threshold that somebody wants. -/
theorem previewRow_eq : previewRow dashChannels it = (previewRung it.2).bind fun t =>
    if previewChans dashChannels t = [] then none
    else some { name := it.1.name, inDays := it.2 - t, t := t,
                chans := previewChans dashChannels t } := by
  simp only [previewRow, previewRung]
  cases hfind : previewThresholds.find? fun x => x < it.2 with
  | none => simp
  | some t =>
    have hlt : t < it.2 := by simpa using List.find?_some hfind
    have hpos : 0 < t := by
      have hmem := List.mem_of_find?_eq_some hfind
      simp only [previewThresholds, List.mem_cons, List.not_mem_nil, or_false] at hmem
      omega
    have hD : ¬ it.2 ≤ 0 := by omega
    by_cases hwindow : it.2 - t ≤ previewWindow
    · have hnot : ¬ (it.2 - t < 0 ∨ previewWindow < it.2 - t) := by omega
      simp only [if_neg hD, if_neg hnot, Option.filter, decide_eq_true hwindow, if_true,
        Option.bind_some]
    · simp [if_neg hD, Option.filter, hwindow]

theorem previewChans_ne_nil_iff : previewChans dashChannels t ≠ [] ↔
    ∃ ch ∈ dashChannels, channelWantsThreshold ch.thresholds t = true := by
  have hmem : ∀ type, type ∈ previewChans dashChannels t ↔
      ∃ ch ∈ dashChannels, channelWantsThreshold ch.thresholds t = true ∧ ch.type = type := by
    intro type
    simp only [previewChans, List.mem_eraseDups, List.mem_map, List.mem_filter, and_assoc]
  constructor
  · intro h
    obtain ⟨type, htype⟩ := List.exists_mem_of_ne_nil _ h
    obtain ⟨ch, hch, hwants, -⟩ := (hmem type).mp htype
    exact ⟨ch, hch, hwants⟩
  · rintro ⟨ch, hch, hwants⟩
    exact List.ne_nil_of_mem ((hmem ch.type).mpr ⟨ch, hch, hwants, rfl⟩)

/-- The rows are those of the entries. -/
theorem mem_renderAlertPreview : row ∈ renderAlertPreview dashChannels currentItems ↔
    ∃ it ∈ currentItems, previewRow dashChannels it = some row := by
  unfold renderAlertPreview
  split_ifs with h
  · have hnone : ∀ t, previewChans dashChannels t = [] := by
      intro t
      rw [h]
      rfl
    simp [previewRow_eq, hnone]
  · rw [List.mem_mergeSort, List.mem_filterMap]

/-- The page reads the thresholds as they are stored. -/
theorem exists_redacted_iff :
    (∃ ch ∈ (s.listChannels userId).map Channel.redacted,
      channelWantsThreshold ch.thresholds t = true) ↔
        ∃ ch ∈ s.listChannels userId, channelWantsThreshold ch.thresholds t = true := by
  simp [Channel.redacted]

/-- What the page shows about an entry is what it counts down to, for a channel that it finds. -/
theorem of_shownRow (h : shownRow s userId now c = some row) :
    previewRung (c.daysRemaining now) = some row.t ∧
      row.inDays = c.daysRemaining now - row.t ∧
      ∃ ch ∈ s.listChannels userId, channelWantsThreshold ch.thresholds row.t = true := by
  rw [shownRow, previewRow_eq, Option.bind_eq_some_iff] at h
  obtain ⟨t, hrung, hrow⟩ := h
  split_ifs at hrow with hchans
  obtain rfl := Option.some.inj hrow
  exact ⟨hrung, rfl, exists_redacted_iff.mp (previewChans_ne_nil_iff.mp hchans)⟩

theorem isSome_shownRow (hrung : previewRung (c.daysRemaining now) = some t)
    (hwants : ∃ ch ∈ s.listChannels userId, channelWantsThreshold ch.thresholds t = true) :
    ∃ row, shownRow s userId now c = some row ∧ row.t = t := by
  have hchans := previewChans_ne_nil_iff.mpr (exists_redacted_iff.mpr hwants)
  have hrow : shownRow s userId now c = some
      { name := c.name, inDays := c.daysRemaining now - t, t := t,
        chans := previewChans ((s.listChannels userId).map Channel.redacted) t } := by
    rw [shownRow, previewRow_eq, hrung, Option.bind_some, if_neg hchans]
  exact ⟨_, hrow, rfl⟩

/-! ### Alerts -/

theorem awaits_listChannels_iff :
    Awaits (s.listChannels userId) s c t ↔ Subscribed s userId c t := by
  have henabled : ∀ ch ∈ s.listChannels userId, ch ∈ s.allEnabledChannels ↔ ch.enabled = true := by
    intro ch hch
    obtain ⟨r, hr, rfl⟩ := List.mem_map.mp hch
    have hmem := List.mem_of_mem_filter hr
    constructor
    · intro henabled
      obtain ⟨r', hr', heq⟩ := List.mem_map.mp henabled
      rw [← heq]
      exact (List.mem_filter.mp hr').2
    · exact fun henabled => List.mem_map_of_mem (List.mem_filter.mpr ⟨hmem, henabled⟩)
  constructor
  · rintro ⟨hahead, ch, hch, hmem, hwants⟩
    exact ⟨hahead, ch, hch, (henabled ch hch).mp hmem, hwants⟩
  · rintro ⟨hahead, ch, hch, hmem, hwants⟩
    exact ⟨hahead, ch, hch, (henabled ch hch).mpr hmem, hwants⟩

/-- The days ahead on which the user is alerted. -/
theorem alertsOn_listChannels_iff (hc : c ∈ s.list) (hpos : 0 < day)
    (hwithin : (day : Int) ≤ previewWindow) :
    AlertsOn (s.listChannels userId) s now c day t ↔
      t ∈ ladder c ∧ c.daysRemaining now = t + day ∧ Subscribed s userId c t := by
  have hday : day ≤ 366 := by
    unfold previewWindow at hwithin
    omega
  rw [alertsOn_iff hc hpos hday, awaits_listChannels_iff]

/-- Between what the page counts down to and the days left there is no threshold of the entry. -/
theorem le_of_mem_ladder {u : Int} (hrung : previewRung D = some u) (ht : t ∈ ladder c)
    (hlt : t < D) : t ≤ u := by
  obtain ⟨-, hwindow, hu⟩ := previewRung_eq_some_iff.mp hrung
  have hcases : t = 60 ∨ t = 30 ∨ t = 7 ∨ t = 3 := by
    unfold ladder at ht
    split_ifs at ht <;> simp only [List.mem_cons, List.not_mem_nil, or_false] at ht <;> omega
  unfold previewWindow at hwindow
  omega

/-- What the page shows is what it counts down to: it is right about the days if it is right about
the threshold. -/
theorem nextAlert_of_previewRung (hc : c ∈ s.list)
    (hrung : previewRung (c.daysRemaining now) = some t) (ht : t ∈ ladder c)
    (hsubscribed : Subscribed s userId c t) :
    ∃ day : Nat, c.daysRemaining now - t = day ∧
      NextAlert (s.listChannels userId) s now c day t := by
  obtain ⟨hlt, hwindow, -⟩ := previewRung_eq_some_iff.mp hrung
  obtain ⟨day, hday⟩ := Int.eq_ofNat_of_zero_le (a := c.daysRemaining now - t) (by omega)
  have hpos : 0 < day := by omega
  refine ⟨day, hday, hpos, by omega, ?_, ?_⟩
  · exact (alertsOn_listChannels_iff hc hpos (by omega)).mpr ⟨ht, by omega, hsubscribed⟩
  · intro day' hpos' hbefore t' halerts
    obtain ⟨ht', hdays, -⟩ := (alertsOn_listChannels_iff hc hpos' (by omega)).mp halerts
    have := le_of_mem_ladder hrung ht' (by omega)
    omega

/-- The preview predicts the passes exactly where it looks at the right threshold. -/
theorem previewPredicts_iff (hc : c ∈ s.list) :
    PreviewPredicts s userId now c ↔ PreviewAgrees s userId now c := by
  constructor
  · rintro ⟨hshown, hmissed⟩
    have halerts : ∀ t ∈ ladder c, t < c.daysRemaining now →
        c.daysRemaining now - t ≤ previewWindow → Subscribed s userId c t →
          (shownRow s userId now c).isSome = true := by
      intro t ht hlt hwindow hsubscribed
      obtain ⟨day, hday⟩ := Int.eq_ofNat_of_zero_le (a := c.daysRemaining now - t) (by omega)
      refine hmissed day t (by omega) (by omega) ?_
      exact (alertsOn_listChannels_iff hc (by omega) (by omega)).mpr ⟨ht, by omega, hsubscribed⟩
    have hright : ∀ row, shownRow s userId now c = some row →
        row.t ∈ ladder c ∧ Subscribed s userId c row.t := by
      intro row hrow
      obtain ⟨day, -, hnext⟩ := hshown row hrow
      obtain ⟨ht, -, hsubscribed⟩ :=
        (alertsOn_listChannels_iff hc hnext.pos hnext.within).mp hnext.alerts
      exact ⟨ht, hsubscribed⟩
    constructor
    · intro t hrung
      obtain ⟨hlt, hwindow, -⟩ := previewRung_eq_some_iff.mp hrung
      constructor
      · intro hwants
        obtain ⟨row, hrow, rfl⟩ := isSome_shownRow hrung hwants
        exact hright row hrow
      · rintro ⟨ht, hsubscribed⟩
        obtain ⟨row, hrow⟩ := Option.isSome_iff_exists.mp (halerts t ht hlt hwindow hsubscribed)
        obtain ⟨hrung', -, hwants⟩ := of_shownRow hrow
        rwa [Option.some.inj (hrung.symm.trans hrung')]
    · intro t ht hlt hwindow hsubscribed
      obtain ⟨row, hrow⟩ := Option.isSome_iff_exists.mp (halerts t ht hlt hwindow hsubscribed)
      obtain ⟨hladder, hrowSubscribed⟩ := hright row hrow
      exact ⟨row.t, hladder, (of_shownRow hrow).1, hrowSubscribed⟩
  · rintro ⟨hnext, hskipped⟩
    constructor
    · intro row hrow
      obtain ⟨hrung, hdays, hwants⟩ := of_shownRow hrow
      obtain ⟨ht, hsubscribed⟩ := (hnext row.t hrung).mp hwants
      obtain ⟨day, hday, halert⟩ := nextAlert_of_previewRung hc hrung ht hsubscribed
      exact ⟨day, hdays.trans hday, halert⟩
    · intro day t hpos hwithin halerts
      obtain ⟨ht, hdays, hsubscribed⟩ := (alertsOn_listChannels_iff hc hpos hwithin).mp halerts
      obtain ⟨u, hu, hrung, hown⟩ := hskipped t ht (by omega) (by omega) hsubscribed
      obtain ⟨row, hrow, -⟩ := isSome_shownRow hrung ((hnext u hrung).mpr ⟨hu, hown⟩)
      exact Option.isSome_iff_exists.mpr ⟨row, hrow⟩

/-! ### Five days left -/

/-- An entry of a kind with five days left. -/
def fiveDaysRow (kind : Kind) : CertRow :=
  { insertScan demoDay "example.org" (demoScan "" 5 []) with kind := kind }

/-- The two channels and the entry. -/
def fiveDaysStore (kind : Kind) : Store :=
  { demoStore with certs := Table.empty.insert (fiveDaysRow kind) }

/-- The entry. -/
def fiveDaysLeft (kind : Kind) : Cert := scanRowValues 1 (fiveDaysRow kind)

theorem fiveDaysLeft_mem_list (kind : Kind) : fiveDaysLeft kind ∈ (fiveDaysStore kind).list :=
  Store.mem_list_iff.mpr ⟨fiveDaysRow kind, rfl, rfl, rfl⟩

theorem daysRemaining_fiveDaysLeft (kind : Kind) :
    (fiveDaysLeft kind).daysRemaining demoDay = 5 := by
  have hdays : daysBetween (parseTime (Rfc3339.format (demoDay + 5 * Rfc3339.oneDay))) demoDay =
      5 := by
    decide +kernel
  exact hdays

theorem previewRung_five : previewRung 5 = some 3 := by decide

/-- Both channels want every threshold. -/
theorem demoChannel_wants (kind : Kind) (t : Int) : ∃ ch ∈ (fiveDaysStore kind).listChannels 1,
    ch.enabled = true ∧ ch.wantsThreshold t = true ∧
      channelWantsThreshold ch.thresholds t = true :=
  ⟨demoChannel 1, List.mem_cons_self, rfl, rfl, rfl⟩

/-- Of a certificate the page says that it will be alerted about in two days, and so it is. -/
theorem preview_certificate :
    PreviewPredicts (fiveDaysStore .endpoint) 1 demoDay (fiveDaysLeft .endpoint) := by
  have hsubscribed : ∀ t, Subscribed (fiveDaysStore .endpoint) 1 (fiveDaysLeft .endpoint) t := by
    intro t
    obtain ⟨ch, hch, henabled, hwants, -⟩ := demoChannel_wants .endpoint t
    exact ⟨.inl rfl, ch, hch, henabled, hwants⟩
  refine (previewPredicts_iff (fiveDaysLeft_mem_list .endpoint)).mpr ⟨?_, ?_⟩
  · rw [daysRemaining_fiveDaysLeft]
    intro t hrung
    obtain rfl : t = 3 := Option.some.inj (hrung.symm.trans previewRung_five)
    obtain ⟨ch, hch, -, -, hwants⟩ := demoChannel_wants .endpoint 3
    exact iff_of_true ⟨ch, hch, hwants⟩ ⟨by decide, hsubscribed 3⟩
  · rw [daysRemaining_fiveDaysLeft]
    exact fun _ _ _ _ _ => ⟨3, by decide, previewRung_five, hsubscribed 3⟩

/-- Of a domain the page says so too, but three days are no threshold of domains. -/
theorem preview_wrong :
    ¬ PreviewPredicts (fiveDaysStore .domain) 1 demoDay (fiveDaysLeft .domain) := by
  intro h
  obtain ⟨ch, hch, -, -, hwants⟩ := demoChannel_wants .domain 3
  have hrung : previewRung ((fiveDaysLeft .domain).daysRemaining demoDay) = some 3 := by
    rw [daysRemaining_fiveDaysLeft, previewRung_five]
  obtain ⟨row, hrow, ht⟩ := isSome_shownRow hrung ⟨ch, hch, hwants⟩
  obtain ⟨day, -, hnext⟩ := h.shown row hrow
  have hladder := ((alertsOn_listChannels_iff (fiveDaysLeft_mem_list .domain) hnext.pos
    hnext.within).mp hnext.alerts).1
  rw [ht] at hladder
  exact absurd hladder (by decide)

end CertGuard
