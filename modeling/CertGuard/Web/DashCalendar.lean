import CertGuard.Lib.TransitionRun
import CertGuard.Web.Timeline

/-!
# The calendar of the dashboard

The calendar card of `dashboard.js`: a year of small months, a month, or a day, with buttons that
lead back and on, out, and, by a click on a month or a day, in. It has keys of its own, made
without zeros in front and of months counted from 0.

## Main definitions

* `CalState`, `CalAct`, `calStep` — the card, and what a user does with it
* `renderYear`, `renderMonth`, `renderDay` — what it shows
* `CalState.Sound` — a month that there is, and in the view of a day a day that it has

## Main results

* `sound_step` — every click keeps the card sound
* `calendar_exact` — after any run of clicks the card shows what expires, where it expires, and what
  the timeline shows
* `calendar_back` — a step on and a step back lead to where they started
-/

namespace CertGuard.DashCalendar

open Inventory Common Script Transition

abbrev Text := List Char

/-! ### The card as the source makes it -/

inductive CalView
  | year
  | month
  | day
  deriving DecidableEq, Repr

/-- `calView`, `calYear`, `calMonth` and `calDay`. -/
structure CalState where
  view : CalView
  calYear : Int
  calMonth : Int
  calDay : Int
  deriving DecidableEq, Repr

/-- `initCal`, on a day. -/
def initCal (now : Int) : CalState :=
  ⟨.year, getUTCFullYear now, getUTCMonth now, getUTCDate now⟩

/-- So many days on; the date rolls over at the end of a month. -/
def shiftDay (s : CalState) (delta : Int) : CalState :=
  let d := dateUTC s.calYear s.calMonth (s.calDay + delta)
  { s with calYear := getUTCFullYear d, calMonth := getUTCMonth d, calDay := getUTCDate d }

/-- Clicks: on the buttons, on a month of the year, on a day of the month. -/
inductive CalAct
  | prev
  | next
  | zoomOut
  | openMonth (m : Nat)
  | openDay (d : Nat)
  deriving DecidableEq, Repr

/-- The number of days of the month, as the card finds it. -/
def daysInMonth (s : CalState) : Int := getUTCDate (dateUTC s.calYear (s.calMonth + 1) 0)

/-- What a click does; `none` is one on something that is not there. -/
def calStep (s : CalState) (a : CalAct) : Option CalState :=
  match a with
  | .prev => some <|
    match s.view with
    | .year => { s with calYear := s.calYear - 1 }
    | .day => shiftDay s (-1)
    | .month =>
      if s.calMonth - 1 < 0 then { s with calMonth := 11, calYear := s.calYear - 1 }
      else { s with calMonth := s.calMonth - 1 }
  | .next => some <|
    match s.view with
    | .year => { s with calYear := s.calYear + 1 }
    | .day => shiftDay s 1
    | .month =>
      if 11 < s.calMonth + 1 then { s with calMonth := 0, calYear := s.calYear + 1 }
      else { s with calMonth := s.calMonth + 1 }
  | .zoomOut =>
    match s.view with
    | .year => none
    | .day => some { s with view := .month }
    | .month => some { s with view := .year }
  | .openMonth m =>
    if s.view = .year ∧ m < 12 then some { s with view := .month, calMonth := m } else none
  | .openDay d =>
    if s.view = .month ∧ 1 ≤ d ∧ d ≤ daysInMonth s then some { s with view := .day, calDay := d }
    else none

/-- The key of a day: its month is counted from 0. -/
def calKey (year month d : Int) : Text := itoa year ++ '-' :: (itoa month ++ '-' :: itoa d)

/-- `utcKey`; of an invalid date every part is `NaN`. -/
def utcKey (date : Text → Option Int) (iso : Text) : Text :=
  match date iso with
  | some ms => calKey (getUTCFullYear (utcDay ms)) (getUTCMonth (utcDay ms))
      (getUTCDate (utcDay ms))
  | none => "NaN-NaN-NaN".toList

/-- The entries under the days they expire on. -/
def bucketByDay (date : Text → Option Int) (currentItems : List Item) :
    List (Text × List Item) :=
  Group.groups (fun it => utcKey date it.cert.expiresAt)
    (currentItems.filter fun it => it.cert.expiresAt ≠ [])

/-- The cell of a day, with the entries it is drawn from. -/
structure CalCell where
  day : Int
  list : List Item
  today : Bool
  deriving DecidableEq

/-- A month of the year. -/
structure MiniMonth where
  month : Int
  count : Nat
  firstDow : Int
  cells : List CalCell
  deriving DecidableEq

/-- The cells of a month: how many are empty, and the others. -/
def calCells (tKey : Text) (byDay : List (Text × List Item)) (year month : Int) :
    Int × List CalCell :=
  (getUTCDay (dateUTC year month 1),
    (List.range (getUTCDate (dateUTC year (month + 1) 0)).toNat).map fun (i : Nat) =>
      let key := calKey year month (i + 1)
      { day := i + 1, list := Group.under key byDay, today := key = tKey })

def renderYear (date : Text → Option Int) (currentItems : List Item) (tKey : Text)
    (s : CalState) : List MiniMonth :=
  let byDay := bucketByDay date currentItems
  (List.range 12).map fun (m : Nat) =>
    let cells := calCells tKey byDay s.calYear m
    { month := m, count := cells.2.foldl (fun n c => n + c.list.length) 0,
      firstDow := cells.1, cells := cells.2 }

def renderMonth (date : Text → Option Int) (currentItems : List Item) (tKey : Text)
    (s : CalState) : Int × List CalCell :=
  calCells tKey (bucketByDay date currentItems) s.calYear s.calMonth

def renderDay (date : Text → Option Int) (currentItems : List Item) (s : CalState) :
    List Item :=
  Group.under (calKey s.calYear s.calMonth s.calDay) (bucketByDay date currentItems)

/-! ### Soundness -/

/-- The month that is looked at. -/
def CalState.month (s : CalState) : Int := 12 * s.calYear + s.calMonth

/-- The day that is looked at. -/
def CalState.day (s : CalState) : Int := Gregorian.firstDay s.month + (s.calDay - 1)

/-- There is the month, and in the view of a day it has the day. -/
structure CalState.Sound (s : CalState) : Prop where
  month : 0 ≤ s.calMonth ∧ s.calMonth < 12
  day : s.view = .day → 1 ≤ s.calDay ∧ s.calDay ≤ Gregorian.monthLength s.month

variable {s s' : CalState} {a : CalAct} {date : Text → Option Int} {items : List Item}
  {tKey : Text}

theorem sound_initCal (now : Int) : (initCal now).Sound :=
  ⟨getUTCMonth_bounds now, fun h => by simp [initCal] at h⟩

/-- The fields of a day make that day. -/
theorem fields_of_day (x : Int) (v : CalView) :
    (⟨v, getUTCFullYear x, getUTCMonth x, getUTCDate x⟩ : CalState).day = x ∧
      1 ≤ getUTCDate x ∧ getUTCDate x ≤ Gregorian.monthLength
        (⟨v, getUTCFullYear x, getUTCMonth x, getUTCDate x⟩ : CalState).month := by
  have hvalid := Gregorian.ofDays_valid x
  obtain ⟨hday, hlt⟩ := Gregorian.toDays_eq_firstDay hvalid
  rw [Gregorian.toDays_ofDays] at hday
  have hone := hvalid.2.2.1
  refine ⟨hday.symm, ?_, ?_⟩
  · unfold getUTCDate
    omega
  · change ((Gregorian.ofDays x).day : Int) ≤
      Gregorian.monthLength (Gregorian.monthIndex (Gregorian.ofDays x))
    omega

/-- A step in the view of a day leads to the day so many days after. -/
theorem shiftDay_eq (hyear : 100 ≤ s.calYear) (delta : Int) : shiftDay s delta =
    ⟨s.view, getUTCFullYear (s.day + delta), getUTCMonth (s.day + delta),
      getUTCDate (s.day + delta)⟩ := by
  have hday : dateUTC s.calYear s.calMonth (s.calDay + delta) = s.day + delta := by
    rw [dateUTC_day hyear]
    unfold CalState.day CalState.month
    omega
  unfold shiftDay
  rw [hday]

theorem daysInMonth_eq (hyear : 100 ≤ s.calYear) :
    daysInMonth s = Gregorian.monthLength s.month :=
  getUTCDate_last hyear

/-- A step of a day leads to an earlier year by one at most. -/
theorem year_of_shift (x : Int) {delta : Int} (hdelta : -1 ≤ delta) :
    getUTCFullYear x - 1 ≤ getUTCFullYear (x + delta) := by
  have hmonth := getUTCMonth_bounds x
  have hmonth' := getUTCMonth_bounds (x + delta)
  have hx : Gregorian.firstDay (12 * getUTCFullYear x) ≤ x := by
    rw [← Gregorian.le_monthIndex_iff, monthIndex_eq]
    omega
  have hearlier := @Gregorian.firstDay_add_le (12 * (getUTCFullYear x - 1))
    (12 * getUTCFullYear x) (by omega)
  have hlength := (Gregorian.monthLength_bounds (12 * (getUTCFullYear x - 1))).1
  have hle : 12 * (getUTCFullYear x - 1) ≤
      Gregorian.monthIndex (Gregorian.ofDays (x + delta)) := by
    rw [Gregorian.le_monthIndex_iff]
    omega
  rw [monthIndex_eq] at hle
  omega

/-- The day that is looked at has the fields of the card. -/
theorem fields_eq (h : s.Sound) (hview : s.view = .day) : getUTCFullYear s.day = s.calYear ∧
    getUTCMonth s.day = s.calMonth ∧ getUTCDate s.day = s.calDay := by
  obtain ⟨hone, hlast⟩ := h.day hview
  obtain ⟨hlo, hhi⟩ := h.month
  obtain ⟨hy, hm, hd⟩ := @fields_of_lt s.month (s.calDay - 1).toNat (by omega)
  have hday : Gregorian.firstDay s.month + ((s.calDay - 1).toNat : Int) = s.day := by
    rw [CalState.day]
    omega
  rw [hday] at hy hm hd
  rw [hy, hm, hd, CalState.month]
  omega

theorem sound_shiftDay (h : s.Sound) (hyear : 100 ≤ s.calYear) (hview : s.view = .day)
    {delta : Int} (hdelta : -1 ≤ delta) :
    (shiftDay s delta).Sound ∧ s.calYear - 1 ≤ (shiftDay s delta).calYear := by
  obtain ⟨hday, hlo, hhi⟩ := fields_of_day (s.day + delta) s.view
  rw [shiftDay_eq hyear]
  refine ⟨⟨getUTCMonth_bounds _, fun _ => ⟨hlo, hhi⟩⟩, ?_⟩
  have hshift := year_of_shift s.day hdelta
  rw [(fields_eq h hview).1] at hshift
  exact hshift

theorem sound_of_ne_day (hmonth : 0 ≤ s.calMonth ∧ s.calMonth < 12) (hview : s.view ≠ .day) :
    s.Sound :=
  ⟨hmonth, fun h => absurd h hview⟩

/-- Every click keeps the card sound, and leads to an earlier year by one at most. -/
theorem sound_step (h : s.Sound) (hyear : 100 ≤ s.calYear) (hs : calStep s a = some s') :
    s'.Sound ∧ s.calYear - 1 ≤ s'.calYear := by
  have hmonth := h.month
  cases a with
  | prev =>
    rw [calStep, Option.some.injEq] at hs
    subst hs
    cases hview : s.view with
    | year => exact ⟨sound_of_ne_day hmonth (by simp), le_rfl⟩
    | month =>
      dsimp only
      split_ifs
      · exact ⟨sound_of_ne_day (by simp) (by simp), le_rfl⟩
      · refine ⟨sound_of_ne_day ?_ (by simp), ?_⟩
        · dsimp only
          omega
        · dsimp only
          omega
    | day => exact sound_shiftDay h hyear hview le_rfl
  | next =>
    rw [calStep, Option.some.injEq] at hs
    subst hs
    cases hview : s.view with
    | year =>
      refine ⟨sound_of_ne_day hmonth (by simp), ?_⟩
      dsimp only
      omega
    | month =>
      dsimp only
      split_ifs
      · refine ⟨sound_of_ne_day (by simp) (by simp), ?_⟩
        dsimp only
        omega
      · refine ⟨sound_of_ne_day ?_ (by simp), ?_⟩
        · dsimp only
          omega
        · dsimp only
          omega
    | day => exact sound_shiftDay h hyear hview (by decide)
  | zoomOut =>
    rw [calStep] at hs
    cases hview : s.view with
    | year => simp [hview] at hs
    | month =>
      rw [hview] at hs
      obtain rfl := Option.some.inj hs
      exact ⟨sound_of_ne_day hmonth (by simp), by dsimp only; omega⟩
    | day =>
      rw [hview] at hs
      obtain rfl := Option.some.inj hs
      exact ⟨sound_of_ne_day hmonth (by simp), by dsimp only; omega⟩
  | openMonth m =>
    rw [calStep, Option.ite_none_right_eq_some, Option.some.injEq] at hs
    obtain ⟨⟨-, hm⟩, rfl⟩ := hs
    refine ⟨sound_of_ne_day ?_ (by simp), by dsimp only; omega⟩
    dsimp only
    omega
  | openDay d =>
    rw [calStep, Option.ite_none_right_eq_some, Option.some.injEq] at hs
    obtain ⟨⟨-, hd1, hd⟩, rfl⟩ := hs
    rw [daysInMonth_eq hyear] at hd
    refine ⟨⟨hmonth, fun _ => ⟨?_, hd⟩⟩, by dsimp only; omega⟩
    dsimp only
    omega

/-- After fewer clicks than would lead out of the years the language counts in full, the card is
sound. -/
theorem sound_run {acts : List CalAct} (h : s.Sound) (hclicks : 101 + acts.length ≤ s.calYear)
    (hrun : run calStep s acts = some s') : s'.Sound ∧ 101 ≤ s'.calYear := by
  induction acts generalizing s with
  | nil =>
    obtain rfl := Option.some.inj hrun
    simp only [List.length_nil] at hclicks
    exact ⟨h, by omega⟩
  | cons a acts ih =>
    simp only [List.length_cons] at hclicks
    obtain ⟨s'', hs, hrest⟩ := Option.bind_eq_some_iff.mp hrun
    obtain ⟨hsound, hyear⟩ := sound_step h (by omega) hs
    exact ih hsound (by omega) hrest

/-! ### What the card shows -/

/-- Days are told apart by their keys. -/
theorem calKey_inj {x y : Int}
    (h : calKey (getUTCFullYear x) (getUTCMonth x) (getUTCDate x) =
      calKey (getUTCFullYear y) (getUTCMonth y) (getUTCDate y)) : x = y := by
  have hmonth := fun z => (getUTCMonth_bounds z).1
  obtain ⟨hy, hm, hd⟩ := dashed_three_inj (dash_not_mem_itoa (hmonth x))
    (dash_not_mem_itoa (hmonth y)) (dash_not_mem_itoa (getUTCDate_nonneg x))
    (dash_not_mem_itoa (getUTCDate_nonneg y)) h
  exact eq_of_fields (itoa_inj hy) (itoa_inj hm) (itoa_inj hd)

/-- No day has the key of an invalid date. -/
theorem calKey_ne_invalid {year month d : Int} (hd : 0 ≤ d) :
    calKey year month d ≠ "NaN-NaN-NaN".toList := by
  intro h
  have hsplit : (itoa year ++ '-' :: itoa month) ++ '-' :: itoa d =
      "NaN-NaN".toList ++ '-' :: "NaN".toList := by
    have hassoc : calKey year month d = (itoa year ++ '-' :: itoa month) ++ '-' :: itoa d := by
      simp [calKey]
    rw [← hassoc, h]
    decide
  -- what stands behind the last dash of a key is a number
  have hlast : 'N' ∈ itoa d := by
    rw [(dashed_inj (dash_not_mem_itoa hd) (by decide) hsplit).2]
    decide
  rw [itoa_of_nonneg hd] at hlast
  exact absurd (Nat.isDigit_of_mem_toDigits (by decide) (by decide) hlast) (by decide)

/-- Under the key of a day are the entries that expire on it, in their order. -/
theorem under_bucketByDay (hinvalid : date [] = none) (x : Int) :
    Group.under (calKey (getUTCFullYear x) (getUTCMonth x) (getUTCDate x))
      (bucketByDay date items) = items.filter fun it => Timeline.expiryDay date it = some x := by
  rw [bucketByDay, Group.under_groups, List.filter_filter]
  congr 1
  funext it
  rw [Bool.eq_iff_iff, Bool.and_eq_true, decide_eq_true_iff, decide_eq_true_iff,
    decide_eq_true_iff]
  unfold utcKey Timeline.expiryDay
  cases hdate : date it.cert.expiresAt with
  | none =>
    refine iff_of_false (fun h => ?_) (by simp)
    exact calKey_ne_invalid (getUTCDate_nonneg x) h.1.symm
  | some ms =>
    -- a date that is read is not the empty text
    have hne : it.cert.expiresAt ≠ [] := by
      intro hempty
      rw [hempty, hinvalid] at hdate
      exact absurd hdate (by simp)
    simp only [Option.map_some, Option.some.injEq, hne, ne_eq, not_false_eq_true, and_true]
    exact ⟨calKey_inj, fun h => by rw [h]⟩

/-- The cells of a month are those of its days. -/
theorem calCells_eq (hinvalid : date [] = none) {year month : Int} (hyear : 100 ≤ year)
    (hmonth : 0 ≤ month ∧ month < 12) :
    calCells tKey (bucketByDay date items) year month =
      (getUTCDay (Gregorian.firstDay (12 * year + month)),
        (List.range (Gregorian.monthLength (12 * year + month))).map fun (i : Nat) =>
          { day := i + 1
            list := items.filter fun it => Timeline.expiryDay date it =
              some (Gregorian.firstDay (12 * year + month) + i)
            today := calKey year month (i + 1) = tKey }) := by
  unfold calCells
  rw [dateUTC_first hyear, getUTCDate_last hyear, Int.toNat_natCast]
  congr 1
  apply List.map_congr_left
  intro i hi
  rw [List.mem_range] at hi
  obtain ⟨hy, hm, hd⟩ := fields_of_lt hi
  have hyear' : (12 * year + month) / 12 = year := by omega
  have hmonth' : (12 * year + month) % 12 = month := by omega
  have hunder := @under_bucketByDay date items hinvalid
    (Gregorian.firstDay (12 * year + month) + i)
  rw [hy, hm, hd, hyear', hmonth'] at hunder
  dsimp only
  rw [hunder]

/-- What the card shows is what the timeline shows of the same months, and of a day what expires
on it. -/
structure Shows (date : Text → Option Int) (items : List Item) (tKey : Text) (s : CalState) :
    Prop where
  counts : (renderYear date items tKey s).map MiniMonth.count =
    (Timeline.render date items [] none (Gregorian.firstDay (12 * s.calYear))).map
      Timeline.MonthCard.count
  cells : (renderYear date items tKey s).map (fun c => c.cells.map CalCell.list) =
    (Timeline.render date items [] none (Gregorian.firstDay (12 * s.calYear))).map
      fun c => c.cells.map Timeline.DayCell.on
  total : ((renderYear date items tKey s).map MiniMonth.count).sum = items.countP fun it =>
    (Timeline.expiryDay date it).map getUTCFullYear = some s.calYear
  month : (renderMonth date items tKey s).2.map CalCell.list =
    (List.range (Gregorian.monthLength s.month)).map fun (i : Nat) =>
      items.filter fun it => Timeline.expiryDay date it =
        some (Gregorian.firstDay s.month + i)
  day : s.view = .day →
    renderDay date items s = items.filter fun it => Timeline.expiryDay date it = some s.day

/-- The first of a year is in the month it is the first of. -/
theorem anchorMonth_firstDay (n : Int) : Timeline.anchorMonth (Gregorian.firstDay n) = n := by
  have hpos := (Gregorian.monthLength_bounds n).1
  rw [Timeline.anchorMonth, Gregorian.monthIndex_ofDays_iff]
  omega

/-- The months of the year, and those of the timeline. -/
theorem renderYear_eq (hinvalid : date [] = none) (hyear : 100 ≤ s.calYear) :
    renderYear date items tKey s = (List.range 12).map fun (m : Nat) =>
      let cells := calCells tKey (bucketByDay date items) s.calYear m
      { month := m, count := (Timeline.monthOf date items [] none (12 * s.calYear + m)).count,
        firstDow := cells.1, cells := cells.2 } := by
  unfold renderYear
  apply List.map_congr_left
  intro m hm
  rw [List.mem_range] at hm
  have hsum : ∀ cells : List CalCell, ∀ n : Nat,
      cells.foldl (fun n c => n + c.list.length) n =
        n + (cells.map fun c => c.list.length).sum := by
    intro cells
    induction cells with
    | nil => intro n; rfl
    | cons c cells ih =>
      intro n
      rw [List.foldl_cons, ih, List.map_cons, List.sum_cons, Nat.add_assoc]
  dsimp only
  congr 1
  rw [hsum, Nat.zero_add, calCells_eq hinvalid hyear (by omega), Timeline.count_monthOf,
    List.map_map]
  simp only [Timeline.monthOf, List.map_map]
  rfl

theorem shows_of_sound (hinvalid : date [] = none) (h : s.Sound) (hyear : 100 ≤ s.calYear) :
    Shows date items tKey s := by
  have hmonths := h.month
  have hjanuary := @fields_of_lt (12 * s.calYear) 0 (by
    have := (Gregorian.monthLength_bounds (12 * s.calYear)).1
    omega)
  have hrender : Timeline.render date items [] none (Gregorian.firstDay (12 * s.calYear)) =
      Timeline.pageOf date items [] none (12 * s.calYear) := by
    rw [Timeline.render_eq, anchorMonth_firstDay]
    have := hjanuary.1
    rw [Int.ofNat_zero, Int.add_zero] at this
    omega
  constructor
  case counts =>
    rw [renderYear_eq hinvalid hyear, hrender, Timeline.pageOf, List.map_map, List.map_map]
    rfl
  case cells =>
    rw [renderYear_eq hinvalid hyear, hrender, Timeline.pageOf, List.map_map, List.map_map]
    apply List.map_congr_left
    intro m hm
    rw [List.mem_range] at hm
    have hbounds : 0 ≤ (m : Int) ∧ (m : Int) < 12 := by omega
    simp only [Function.comp, calCells_eq hinvalid hyear hbounds, Timeline.monthOf,
      List.map_map]
    rfl
  case total =>
    have hnodup : ((List.range 12).map fun (m : Nat) =>
        some (12 * s.calYear + (m : Int))).Nodup := by
      refine List.nodup_range.map fun a b h => ?_
      have := Option.some.inj h
      omega
    have hsum := @Group.sum_filter _ _ _ (Timeline.expiryMonth date) _ hnodup items
    simp only [← List.countP_eq_length_filter] at hsum
    rw [List.map_map] at hsum
    rw [renderYear_eq hinvalid hyear, List.map_map]
    refine Eq.trans hsum ?_
    congr 1
    funext it
    rw [decide_eq_decide, List.mem_map, Timeline.expiryMonth]
    cases Timeline.expiryDay date it with
    | none => simp
    | some x =>
      have hbounds := getUTCMonth_bounds x
      simp only [Option.map_some, Option.some.injEq, List.mem_range, monthIndex_eq]
      constructor
      · rintro ⟨m, hm, heq⟩
        omega
      · intro heq
        exact ⟨(getUTCMonth x).toNat, by omega, by omega⟩
  case month =>
    rw [renderMonth, calCells_eq hinvalid hyear hmonths, List.map_map]
    rfl
  case day =>
    intro hview
    have hunder := @under_bucketByDay date items hinvalid s.day
    obtain ⟨hy, hm, hd⟩ := fields_eq h hview
    rw [hy, hm, hd] at hunder
    exact hunder

/-! ### Back and on -/

/-- A step on and a step back lead to where they started, and so do a step back and a step on; in
the view of a day they are days. -/
theorem calendar_back (h : s.Sound) (hyear : 101 ≤ s.calYear) :
    (calStep s .next).bind (calStep · .prev) = some s ∧
    (calStep s .prev).bind (calStep · .next) = some s ∧
    (s.view = .day → ∀ s', (calStep s .next = some s' → s'.day = s.day + 1) ∧
      (calStep s .prev = some s' → s'.day = s.day - 1)) := by
  obtain ⟨hlo, hhi⟩ := h.month
  have hday : s.view = .day → ∀ a b : Int, -1 ≤ a → a + b = 0 →
      shiftDay (shiftDay s a) b = s ∧ (shiftDay s a).day = s.day + a ∧
        (shiftDay s a).view = .day := by
    intro hview a b ha hab
    obtain ⟨hy, hm, hd⟩ := fields_eq h hview
    have hfirst := @shiftDay_eq s (by omega) a
    have hyear' : 100 ≤ (shiftDay s a).calYear := by
      have := (sound_shiftDay h (by omega) hview ha).2
      omega
    have hsame : (shiftDay s a).day = s.day + a := by
      rw [hfirst]
      exact (fields_of_day _ _).1
    have hzero : s.day + a + b = s.day := by omega
    refine ⟨?_, hsame, ?_⟩
    · rw [shiftDay_eq hyear', hsame, hzero, hy, hm, hd, hfirst]
    · rw [hfirst]
      exact hview
  refine ⟨?_, ?_, fun hview s' => ⟨fun hs => ?_, fun hs => ?_⟩⟩
  · cases hview : s.view with
    | year =>
      obtain ⟨v, y, m, d⟩ := s
      dsimp only at hview
      subst hview
      simp [calStep]
    | month =>
      obtain ⟨v, y, m, d⟩ := s
      dsimp only at hview hlo hhi
      subst hview
      simp only [calStep, Option.bind_some, Option.some.injEq]
      -- at the turn of a year the month starts over
      split_ifs <;> simp only [CalState.mk.injEq, true_and, and_true] at * <;> omega
    | day =>
      obtain ⟨hback, -, hstill⟩ := hday hview 1 (-1) (by decide) (by decide)
      simp only [calStep, hview, Option.bind_some, hstill, hback]
  · cases hview : s.view with
    | year =>
      obtain ⟨v, y, m, d⟩ := s
      dsimp only at hview
      subst hview
      simp [calStep]
    | month =>
      obtain ⟨v, y, m, d⟩ := s
      dsimp only at hview hlo hhi
      subst hview
      simp only [calStep, Option.bind_some, Option.some.injEq]
      -- at the turn of a year the month starts over
      split_ifs <;> simp only [CalState.mk.injEq, true_and, and_true] at * <;> omega
    | day =>
      obtain ⟨hback, -, hstill⟩ := hday hview (-1) 1 (by decide) (by decide)
      simp only [calStep, hview, Option.bind_some, hstill, hback]
  · simp only [calStep, hview, Option.some.injEq] at hs
    rw [← hs]
    exact (hday hview 1 (-1) (by decide) (by decide)).2.1
  · simp only [calStep, hview, Option.some.injEq] at hs
    rw [← hs]
    exact (hday hview (-1) 1 (by decide) (by decide)).2.1

/-- Whatever a user clicks, fewer times than would lead out of the years from 101 on: the card is at
a month there is, and in the view of a day at a day it has; what it shows is what the timeline
shows of the same months, and what expires on the day; and its buttons undo each other. -/
theorem calendar_exact (date : Text → Option Int) (items : List Item) (tKey : Text) (now : Int)
    (acts : List CalAct) (s : CalState) (hinvalid : date [] = none)
    (hclicks : 101 + acts.length ≤ getUTCFullYear now)
    (hrun : run calStep (initCal now) acts = some s) :
    s.Sound ∧ Shows date items tKey s ∧
    (calStep s .next).bind (calStep · .prev) = some s ∧
    (calStep s .prev).bind (calStep · .next) = some s ∧
    (s.view = .day → ∀ s', (calStep s .next = some s' → s'.day = s.day + 1) ∧
      (calStep s .prev = some s' → s'.day = s.day - 1)) := by
  obtain ⟨hsound, hyear⟩ := sound_run (sound_initCal now) hclicks hrun
  exact ⟨hsound, shows_of_sound hinvalid hsound (by omega), calendar_back hsound hyear⟩

/-- Reads the dates of the two entries around New Year, and no other text. -/
def newYearDate (iso : Text) : Option Int :=
  if iso = "a".toList then some 1798761599000
  else if iso = "b".toList then some 1798761600000
  else none

/-- From 31 December 2026, opened as a day, a step on leads to New Year's Day, and of the two
entries the card shows the later one. -/
theorem calendar_exact_newYear :
    run calStep (initCal 739980) [.openMonth 11, .openDay 31, .next] = some ⟨.day, 2027, 0, 1⟩ ∧
      (⟨.day, 2027, 0, 1⟩ : CalState).Sound ∧
      Shows newYearDate Timeline.newYearsEve [] ⟨.day, 2027, 0, 1⟩ ∧
      (renderDay newYearDate Timeline.newYearsEve ⟨.day, 2027, 0, 1⟩).map (·.cert.name) =
        ["new".toList] := by
  have hrun : run calStep (initCal 739980) [.openMonth 11, .openDay 31, .next] =
      some ⟨.day, 2027, 0, 1⟩ := by decide
  obtain ⟨hsound, hshows, -⟩ := calendar_exact newYearDate Timeline.newYearsEve [] 739980
    [.openMonth 11, .openDay 31, .next] ⟨.day, 2027, 0, 1⟩ rfl (by decide) hrun
  refine ⟨hrun, hsound, hshows, ?_⟩
  rw [hshows.day rfl]
  decide

end CertGuard.DashCalendar
