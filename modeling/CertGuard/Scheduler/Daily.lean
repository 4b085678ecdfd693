import CertGuard.Scheduler.Unchanged

/-!
# Daily passes

A pass a day in which every message is taken and every mark is stored. What such a pass alerts
about when the bucket of an entry changes is known beforehand: it goes by the days the entry has
left, and by the counter it started with.

## Main definitions

* `dailyPass`, `onDay` — the pass of a day, and what it works on
* `ladder` — the thresholds of an entry
* `AlertsOn` — a day on which the bucket changes and one of some channels is alerted

## Main results

* `bucketOn_eq` — the bucket of a day
* `alertsOn_iff` — the days on which channels are alerted
-/

namespace CertGuard

open Transition Escalation

/-- What the pass of a day meets. -/
def dailyEnv (now : Int) (day : Nat) : PassEnv where
  now := now + day * Rfc3339.oneDay
  clock := now + day * Rfc3339.oneDay
  send := fun _ _ => true
  marks := fun _ _ => true

/-- The pass of a day. -/
def dailyPass (now : Int) (day : Nat) : Op := .pass (dailyEnv now day)

/-- The passes before a day. -/
def passesBefore (now : Int) (day : Nat) : List Op := (List.range day).map (dailyPass now)

/-- The store the pass of a day works on. -/
def onDay (s : Store) (now : Int) (day : Nat) : Store := (runOut opStep s (passesBefore now day)).1

/-- The bucket of an entry on a day. -/
def bucketOn (c : Cert) (now : Int) (day : Nat) : Int :=
  Alert.leaf.current c (now + day * Rfc3339.oneDay)

/-- The thresholds of an entry. -/
def ladder (c : Cert) : List Int := if c.kind = .domain then [60, 30, 7] else [30, 7, 3]

/-- On a day, the bucket of an entry changes and one of the channels is alerted at the new one. -/
structure AlertsOn (channels : List Channel) (s : Store) (now : Int) (c : Cert) (day : Nat)
    (t : Int) : Prop where
  change : bucketOn c now (day - 1) ≠ bucketOn c now day
  bucket : bucketOn c now day = t
  alerted : ∃ ch ∈ channels,
    t ∈ rungsTo .leaf ch c.id (notifyPass (dailyEnv now day) (onDay s now day)).2

/-- One of the channels would be sent an alert at a threshold that is still ahead. -/
structure Awaits (channels : List Channel) (s : Store) (c : Cert) (t : Int) : Prop where
  ahead : c.lastNotifiedThreshold = 0 ∨ t < c.lastNotifiedThreshold
  subscribed : ∃ ch ∈ channels, ch ∈ s.allEnabledChannels ∧ ch.wantsThreshold t = true

variable {s : Store} {c : Cert} {r : CertRow} {now t e u : Int} {day : Nat} {ch : Channel}
variable {channels : List Channel} {op : Op} {ops : List Op}

/-! ### Buckets -/

/-- An entry has at most so many days left. -/
theorem daysBetween_le_iff (ht : 0 ≤ t) (hmax : (t + 1) * Rfc3339.oneDay ≤ maxDuration) :
    daysBetween e u ≤ t ↔ e - u < (t + 1) * Rfc3339.oneDay := by
  rw [daysBetween, tdiv_oneDay_eq]
  simp only [timeSub, maxDuration, minDuration, Rfc3339.oneDay] at *
  split_ifs <;> omega

/-- In a year's time an entry will have that many days less, as far as its bucket goes. -/
theorem daysRemaining_le_iff (ht : 0 ≤ t ∧ t ≤ 60) (hday : day ≤ 366) :
    c.daysRemaining (now + day * Rfc3339.oneDay) ≤ t ↔ c.daysRemaining now - day ≤ t := by
  have hlater : c.daysRemaining (now + day * Rfc3339.oneDay) ≤ t ↔
      c.expiresAt - (now + day * Rfc3339.oneDay) < (t + 1) * Rfc3339.oneDay :=
    daysBetween_le_iff ht.1 (by simp only [maxDuration, Rfc3339.oneDay]; omega)
  have hnow : c.daysRemaining now ≤ t + day ↔
      c.expiresAt - now < (t + day + 1) * Rfc3339.oneDay :=
    daysBetween_le_iff (by omega) (by simp only [maxDuration, Rfc3339.oneDay]; omega)
  simp only [Rfc3339.oneDay] at hlater hnow ⊢
  omega

theorem bucketOn_eq (hday : day ≤ 366) :
    bucketOn c now day = thresholdFor c (c.daysRemaining now - day) := by
  have hle : ∀ t : Int, 0 ≤ t ∧ t ≤ 60 →
      (c.daysRemaining (now + day * Rfc3339.oneDay) ≤ t ↔ c.daysRemaining now - day ≤ t) :=
    fun t ht => daysRemaining_le_iff ht hday
  simp only [bucketOn, Alert.current, thresholdFor, currentThreshold, currentDomainThreshold,
    hle 3 (by decide), hle 7 (by decide), hle 30 (by decide), hle 60 (by decide)]

/-- The bucket changes where the days left come down to a threshold. -/
theorem thresholdFor_succ_ne_iff {d : Int} :
    thresholdFor c (d + 1) ≠ thresholdFor c d ↔ d ∈ ladder c := by
  unfold thresholdFor ladder
  split_ifs
  · simp only [currentDomainThreshold, List.mem_cons, List.not_mem_nil, or_false]
    split_ifs <;> omega
  · simp only [currentThreshold, List.mem_cons, List.not_mem_nil, or_false]
    split_ifs <;> omega

theorem thresholdFor_of_mem_ladder (ht : t ∈ ladder c) : thresholdFor c t = t := by
  unfold ladder at ht
  unfold thresholdFor
  split_ifs at ht ⊢
  · simp only [List.mem_cons, List.not_mem_nil, or_false] at ht
    obtain rfl | rfl | rfl := ht <;> decide
  · simp only [List.mem_cons, List.not_mem_nil, or_false] at ht
    obtain rfl | rfl | rfl := ht <;> decide

theorem pos_of_mem_ladder (ht : t ∈ ladder c) : 0 < t ∧ t ≤ 60 := by
  unfold ladder at ht
  split_ifs at ht <;> simp only [List.mem_cons, List.not_mem_nil, or_false] at ht <;> omega

/-- On a day the bucket changes to a threshold that the days left come down to. -/
theorem bucketOn_change_iff (hpos : 0 < day) (hday : day ≤ 366) :
    (bucketOn c now (day - 1) ≠ bucketOn c now day ∧ bucketOn c now day = t) ↔
      t ∈ ladder c ∧ c.daysRemaining now = t + day := by
  have hprev : c.daysRemaining now - (day - 1 : Nat) = c.daysRemaining now - day + 1 := by omega
  rw [bucketOn_eq (by omega), bucketOn_eq hday, hprev, thresholdFor_succ_ne_iff]
  constructor
  · rintro ⟨hmem, hbucket⟩
    rw [thresholdFor_of_mem_ladder hmem] at hbucket
    exact ⟨hbucket ▸ hmem, by omega⟩
  · rintro ⟨hmem, hdays⟩
    have ht : c.daysRemaining now - day = t := by omega
    rw [ht]
    exact ⟨hmem, thresholdFor_of_mem_ladder hmem⟩

/-- Entries in the same place of the ladder are in the same bucket. -/
theorem Alert.current_eq_of_rung_eq {a : Alert} (h : a.rung c u = a.rung c e) :
    a.current c u = a.current c e := by
  unfold Alert.rung at h
  split_ifs at h with hu he he
  · rw [hu, he]
  · exact absurd h WithTop.top_ne_coe
  · exact absurd h.symm WithTop.top_ne_coe
  · exact WithTop.coe_inj.mp h

/-- Before the bucket changes, the entry stands higher. -/
theorem rung_lt_of_change (hchange : bucketOn c now (day - 1) ≠ bucketOn c now day) {j : Nat}
    (hj : j < day) : Alert.leaf.rung c (now + day * Rfc3339.oneDay) <
      Alert.leaf.rung c (now + j * Rfc3339.oneDay) := by
  have hlt : Alert.leaf.rung c (now + day * Rfc3339.oneDay) <
      Alert.leaf.rung c (now + (day - 1 : Nat) * Rfc3339.oneDay) := by
    refine lt_of_le_of_ne (Alert.rung_antitone _ _ ?_) fun heq => ?_
    · simp only [Rfc3339.oneDay]
      omega
    · exact hchange (Alert.current_eq_of_rung_eq heq).symm
  refine hlt.trans_le (Alert.rung_antitone _ _ ?_)
  simp only [Rfc3339.oneDay]
  omega

/-! ### Days -/

/-- Passes keep the channels. -/
theorem onDay_channels : (onDay s now day).channels = s.channels :=
  runOut_induction (P := fun t : Store => t.channels = s.channels) rfl
    fun _ _ _ h => opStep_channels.trans h

theorem allSame_passesBefore : AllSame c (passesBefore now day) := by
  intro u name res hmem
  obtain ⟨j, -, hj⟩ := List.mem_map.mp hmem
  exact absurd hj (by simp [dailyPass])

/-- In a run in which nothing is replaced the row of an entry stands for it. -/
theorem Unchanged.runOut {id : Int} (hrow : s.certs.get? id = some r) (hr : Unchanged c r)
    (hall : AllSame c ops) :
    ∃ r', (Transition.runOut opStep s ops).1.certs.get? id = some r' ∧ Unchanged c r' := by
  induction ops generalizing s r with
  | nil => exact ⟨r, hrow, hr⟩
  | cons op ops ih => exact ih (get?_certs_opStep op hrow) (hr.opRow hrow hall) hall.tail

theorem passes_passesBefore :
    passes (passesBefore now day) = (List.range day).map (dailyEnv now) := by
  simp only [passes, passesBefore, List.filterMap_map, Function.comp_def, dailyPass]
  exact congrFun List.filterMap_eq_map' _

/-- The row of an entry on a day: its counter is where the looks of the days before left it. -/
theorem get?_certs_onDay (now : Int) (day : Nat) (ch : Channel)
    (hrow : s.certs.get? c.id = some r) (hr : Unchanged c r) :
    ∃ r', (onDay s now day).certs.get? c.id = some r' ∧ Unchanged c r' ∧
      ofCounter (Alert.leaf.counter r') =
        marks (ofCounter (Alert.leaf.counter r))
          (looks .leaf ch c.id s (passesBefore now day)) := by
  have hsame : AllSame c (passesBefore now day) := allSame_passesBefore
  have hkeep : MeetsOut opStep (fun s op => ¬ Replaces .leaf c.id s op) s (passesBefore now day) :=
    meetsOut_of_allSame hrow hr hsame
  obtain ⟨r', hrow', -, hcounter⟩ := get?_certs_runOut ch hrow hr.active hkeep
  obtain ⟨r'', hrow'', hr''⟩ := hr.runOut hrow hsame
  obtain rfl := Option.some.inj (hrow'.symm.trans hrow'')
  exact ⟨r', hrow', hr'', hcounter⟩

/-- On the day its bucket changes, what was still ahead at the start is due. -/
theorem due_onDay (hrow : s.certs.get? c.id = some r) (hr : Unchanged c r)
    (hchange : bucketOn c now (day - 1) ≠ bucketOn c now day) (ch : Channel) :
    Alert.leaf.rung c (now + day * Rfc3339.oneDay) <
        marks (ofCounter (Alert.leaf.counter r)) (looks .leaf ch c.id s (passesBefore now day)) ↔
      Alert.leaf.rung c (now + day * Rfc3339.oneDay) < ofCounter (Alert.leaf.counter r) := by
  refine lt_marks_iff fun l hl => ?_
  have hmem := List.mem_map_of_mem (f := Look.rung) hl
  rw [map_rung_looks .leaf ch hrow hr allSame_passesBefore, passes_passesBefore, List.map_map,
    List.mem_map] at hmem
  obtain ⟨j, hj, hrung⟩ := hmem
  rw [← hrung]
  exact rung_lt_of_change hchange (List.mem_range.mp hj)

theorem coe_lt_ofCounter_iff {n : Int} : (t : WithTop Int) < ofCounter n ↔ n = 0 ∨ t < n := by
  unfold ofCounter
  split_ifs with h
  · simp [h]
  · simp [h]

/-- On the day its bucket changes, an alert about the entry goes to a channel that subscribes to
the new bucket, if it is still ahead. -/
theorem mem_rungsTo_onDay_iff (hc : c ∈ s.list)
    (hchange : bucketOn c now (day - 1) ≠ bucketOn c now day) (hbucket : bucketOn c now day = t)
    (ht : 0 < t) :
    t ∈ rungsTo .leaf ch c.id (notifyPass (dailyEnv now day) (onDay s now day)).2 ↔
      (c.lastNotifiedThreshold = 0 ∨ t < c.lastNotifiedThreshold) ∧
        ch ∈ s.allEnabledChannels ∧ ch.wantsThreshold t = true := by
  obtain ⟨r, hrow, hactive, hread⟩ := Store.mem_list_iff.mp hc
  have hr : Unchanged c r := hread ▸ Unchanged.refl hactive
  obtain ⟨r', hrow', hr', hcounter⟩ := get?_certs_onDay now day ch hrow hr
  have hrung : Alert.leaf.rung c (now + day * Rfc3339.oneDay) = (t : WithTop Int) :=
    Alert.rung_eq_coe_iff.mpr ⟨ht, hbucket⟩
  have hlast : Alert.leaf.counter r = c.lastNotifiedThreshold := by
    rw [hread]
    rfl
  have hchannels : (onDay s now day).allEnabledChannels = s.allEnabledChannels := by
    simp only [Store.allEnabledChannels, onDay_channels]
  have hdue : Alert.leaf.rung (scanRowValues c.id r') (now + day * Rfc3339.oneDay) <
      ofCounter (Alert.leaf.last (scanRowValues c.id r')) ↔
        c.lastNotifiedThreshold = 0 ∨ t < c.lastNotifiedThreshold := by
    rw [hr'.rung_eq, Alert.last_scanRowValues, hcounter, due_onDay hrow hr hchange ch, hrung,
      hlast, coe_lt_ofCounter_iff]
  have hcurrent : Alert.leaf.current (scanRowValues c.id r') (now + day * Rfc3339.oneDay) = t :=
    hr'.current_eq.trans hbucket
  rw [rungsTo_notifyPass hrow' hr'.active, hchannels, took_eq]
  have hnow : (dailyEnv now day).now = now + day * Rfc3339.oneDay := rfl
  rw [hnow]
  by_cases hahead : c.lastNotifiedThreshold = 0 ∨ t < c.lastNotifiedThreshold
  · have hpos := Alert.due_pos_iff.mpr (hdue.mpr hahead)
    rw [if_pos (hdue.mpr hahead), Alert.due_eq_current hpos, hcurrent]
    simp [takers, deliver, hcurrent, dailyEnv, hahead]
  · rw [if_neg fun h => hahead (hdue.mp h)]
    simp [hahead]

/-- Channels are alerted on the day on which the days left come down to a threshold of the entry
that one of them awaits. -/
theorem alertsOn_iff (hc : c ∈ s.list) (hpos : 0 < day) (hday : day ≤ 366) :
    AlertsOn channels s now c day t ↔
      t ∈ ladder c ∧ c.daysRemaining now = t + day ∧ Awaits channels s c t := by
  rw [← and_assoc, ← bucketOn_change_iff hpos hday]
  constructor
  · rintro ⟨hchange, hbucket, ch, hch, halerted⟩
    have ht := pos_of_mem_ladder ((bucketOn_change_iff hpos hday).mp ⟨hchange, hbucket⟩).1
    obtain ⟨hahead, hwants⟩ := (mem_rungsTo_onDay_iff hc hchange hbucket ht.1).mp halerted
    exact ⟨⟨hchange, hbucket⟩, hahead, ch, hch, hwants⟩
  · rintro ⟨⟨hchange, hbucket⟩, hahead, ch, hch, hwants⟩
    have ht := pos_of_mem_ladder ((bucketOn_change_iff hpos hday).mp ⟨hchange, hbucket⟩).1
    exact ⟨hchange, hbucket, ch, hch,
      (mem_rungsTo_onDay_iff hc hchange hbucket ht.1).mpr ⟨hahead, hwants⟩⟩

end CertGuard
