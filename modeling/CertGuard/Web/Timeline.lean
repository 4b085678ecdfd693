import CertGuard.Lib.Group
import CertGuard.Web.Common
import CertGuard.Web.Days

/-!
# The timeline

The page of `timeline.js`: twelve months at a time, every entry on the day it expires. The page
sorts the entries under texts made of their dates and looks the texts of its days up; what it
shows is compared with the months and days of the calendar.

## Main definitions

* `bucket`, `monthCells`, `render` — the page, as the source makes it
* `shiftMonths` — its buttons
* `cellOf`, `monthOf`, `pageOf` — the page, in terms of days

## Main results

* `render_eq` — the page is the one in terms of days
* `timeline_exact` — every entry that expires in the twelve months is in the cell of its day and in
  no other, the numbers of the months count them, and the pages follow each other without a gap
-/

namespace CertGuard.Timeline

open Inventory Common Script

abbrev Text := List Char

/-! ### The page as the source makes it -/

/-- The names of the months. -/
def monthNames : List Text :=
  ["January".toList, "February".toList, "March".toList, "April".toList, "May".toList,
    "June".toList, "July".toList, "August".toList, "September".toList, "October".toList,
    "November".toList, "December".toList]

/-- A day as `2026-12-31`. -/
def dayKey (x : Int) : Text :=
  itoa (getUTCFullYear x) ++ '-' :: (padStart2 (getUTCMonth x + 1) ++
    '-' :: padStart2 (getUTCDate x))

/-- `keyOf`; of an invalid date every part is `NaN`. -/
def keyOf (date : Text → Option Int) (iso : Text) : Text :=
  match date iso with
  | some ms => dayKey (utcDay ms)
  | none => "NaN-NaN-NaN".toList

/-- `mondayIndex`: the day of the week, counted from Monday. -/
def mondayIndex (x : Int) : Int := (getUTCDay x + 6) % 7

/-- `bucket`: the entries under the keys of their dates. -/
def bucket (date : Text → Option Int) (items : List Item) : List (Text × List Item) :=
  Group.groups (fun it => keyOf date it.cert.expiresAt) items

/-- What the cell of a day is made of: `on` are the entries that expire, `level` is the class of
the worst of them, and of the dots at most three are drawn. -/
structure DayCell where
  key : Text
  day : Int
  on : List Item
  today : Bool
  selected : Bool
  level : Option Text
  label : Text
  dots : List Text
  more : Nat
  deriving DecidableEq

/-- The cell with a key, of a day of a month. -/
def dayCell (today : Text) (selectedKey : Option Text) (key : Text) (on : List Item)
    (month d : Int) : DayCell where
  key := key
  day := d
  on := on
  today := key = today
  selected := selectedKey = some key
  level :=
    match on with
    | [] => none
    | it :: rest => some (expiryLevel (rest.foldl (fun w it => min w it.daysRemaining)
        it.daysRemaining))
  label :=
    itoa d ++ ' ' :: (monthNames.getD month.toNat [] ++
      if on = [] then []
      else ": ".toList ++ itoa on.length ++ " expiring — ".toList ++
        ", ".toList.intercalate (on.map fun it => it.cert.name))
  dots := (on.take 3).map fun it => categoryColor it.cert.category
  more := on.length - 3

/-- A month of the page. -/
structure MonthCard where
  year : Int
  month : Int
  count : Nat
  lead : Int
  cells : List DayCell
  deriving DecidableEq

/-- `monthCells`: how many cells are empty, and the others. -/
def monthCells (today : Text) (selectedKey : Option Text) (byDay : List (Text × List Item))
    (year month : Int) : Int × List DayCell :=
  let first := dateUTC year month 1
  let days := getUTCDate (dateUTC year (month + 1) 0)
  let lead := mondayIndex first
  (lead, (List.range days.toNat).map fun (i : Nat) =>
    let d : Int := i + 1
    let key := itoa year ++ '-' :: (padStart2 (month + 1) ++ '-' :: padStart2 d)
    dayCell today selectedKey key (Group.under key byDay) month d)

/-- A month of `render`: the one so many months after the anchor. -/
def monthCard (today : Text) (selectedKey : Option Text) (byDay : List (Text × List Item))
    (anchor : Int) (i : Nat) : MonthCard :=
  let d := dateUTC (getUTCFullYear anchor) (getUTCMonth anchor + i) 1
  let y := getUTCFullYear d
  let m := getUTCMonth d
  let n := ((byDay.filter fun g => (itoa y ++ '-' :: padStart2 (m + 1)).isPrefixOf g.1).map
    fun g => g.2.length).sum
  let cells := monthCells today selectedKey byDay y m
  { year := y, month := m, count := n, lead := cells.1, cells := cells.2 }

/-- The twelve months from the anchor on. -/
def render (date : Text → Option Int) (items : List Item) (today : Text)
    (selectedKey : Option Text) (anchor : Int) : List MonthCard :=
  let byDay := bucket date items
  (List.range 12).map (monthCard today selectedKey byDay anchor)

def shiftMonths (anchor n : Int) : Int :=
  dateUTC (getUTCFullYear anchor) (getUTCMonth anchor + n) 1

/-! ### The page in terms of days -/

/-- The day an entry expires on, in UTC. -/
def expiryDay (date : Text → Option Int) (it : Item) : Option Int :=
  (date it.cert.expiresAt).map utcDay

/-- The cell of a day. -/
def cellOf (date : Text → Option Int) (items : List Item) (today : Text)
    (selectedKey : Option Text) (x : Int) : DayCell :=
  dayCell today selectedKey (dayKey x) (items.filter fun it => expiryDay date it = some x)
    (getUTCMonth x) (getUTCDate x)

/-- The month an entry expires in. -/
def expiryMonth (date : Text → Option Int) (it : Item) : Option Int :=
  (expiryDay date it).map fun x => Gregorian.monthIndex (Gregorian.ofDays x)

/-- A month. -/
def monthOf (date : Text → Option Int) (items : List Item) (today : Text)
    (selectedKey : Option Text) (n : Int) : MonthCard where
  year := n / 12
  month := n % 12
  count := items.countP fun it => expiryMonth date it = some n
  lead := mondayIndex (Gregorian.firstDay n)
  cells := (List.range (Gregorian.monthLength n)).map fun (k : Nat) =>
    cellOf date items today selectedKey (Gregorian.firstDay n + k)

/-- Twelve months in a row. -/
def pageOf (date : Text → Option Int) (items : List Item) (today : Text)
    (selectedKey : Option Text) (n : Int) : List MonthCard :=
  (List.range 12).map fun (i : Nat) => monthOf date items today selectedKey (n + i)

/-- The month the anchor falls in. -/
def anchorMonth (anchor : Int) : Int := Gregorian.monthIndex (Gregorian.ofDays anchor)

/-! ### The keys -/

variable {date : Text → Option Int} {items : List Item} {today : Text}
  {selectedKey : Option Text} {anchor : Int}

/-- Days are told apart by their keys. -/
theorem dayKey_inj {x y : Int} (h : dayKey x = dayKey y) : x = y := by
  have hmonth : ∀ z, 0 ≤ getUTCMonth z + 1 := fun z => by
    have := (getUTCMonth_bounds z).1
    omega
  obtain ⟨hy, hm, hd⟩ := dashed_three_inj (dash_not_mem_padStart2 (hmonth x))
    (dash_not_mem_padStart2 (hmonth y)) (dash_not_mem_padStart2 (getUTCDate_nonneg x))
    (dash_not_mem_padStart2 (getUTCDate_nonneg y)) h
  apply eq_of_fields
  · exact itoa_inj hy
  · have := padStart2_inj (hmonth x) (hmonth y) hm
    omega
  · exact padStart2_inj (getUTCDate_nonneg x) (getUTCDate_nonneg y) hd

/-- No day has the key of an invalid date. -/
theorem dayKey_ne_invalid (x : Int) : dayKey x ≠ "NaN-NaN-NaN".toList := by
  intro h
  -- what stands behind the last dash of a key is a number
  have hlast : 'N' ∈ padStart2 (getUTCDate x) := by
    have hassoc : dayKey x = (itoa (getUTCFullYear x) ++ '-' :: padStart2 (getUTCMonth x + 1)) ++
        '-' :: padStart2 (getUTCDate x) := by
      simp [dayKey]
    have hsplit : (itoa (getUTCFullYear x) ++ '-' :: padStart2 (getUTCMonth x + 1)) ++
        '-' :: padStart2 (getUTCDate x) = "NaN-NaN".toList ++ '-' :: "NaN".toList := by
      rw [← hassoc, h]
      decide
    rw [(dashed_inj (dash_not_mem_padStart2 (getUTCDate_nonneg x)) (by decide) hsplit).2]
    decide
  unfold padStart2 List.leftpad at hlast
  rcases List.mem_append.mp hlast with hzero | hdigit
  · exact absurd (List.eq_of_mem_replicate hzero) (by decide)
  · rw [itoa_of_nonneg (getUTCDate_nonneg x)] at hdigit
    exact absurd (Nat.isDigit_of_mem_toDigits (by decide) (by decide) hdigit) (by decide)

/-- The key of an entry is that of a day just if it expires on it. -/
theorem keyOf_eq_iff {it : Item} {x : Int} :
    keyOf date it.cert.expiresAt = dayKey x ↔ expiryDay date it = some x := by
  unfold keyOf expiryDay
  cases date it.cert.expiresAt with
  | none =>
    refine iff_of_false (fun h => dayKey_ne_invalid x h.symm) ?_
    simp
  | some ms =>
    rw [Option.map_some, Option.some.injEq]
    exact ⟨dayKey_inj, fun h => congrArg dayKey h⟩

/-- Under the key of a day are the entries that expire on it, in their order. -/
theorem under_bucket (x : Int) : Group.under (dayKey x) (bucket date items) =
    items.filter fun it => expiryDay date it = some x := by
  rw [bucket, Group.under_groups]
  congr 1
  funext it
  exact decide_eq_decide.mpr keyOf_eq_iff

/-- A key begins with a year and a month just if its day lies in it. -/
theorem isPrefixOf_dayKey {n x : Int} (hn : 0 ≤ n) :
    (itoa (n / 12) ++ '-' :: padStart2 (n % 12 + 1)).isPrefixOf (dayKey x) = true ↔
      Gregorian.monthIndex (Gregorian.ofDays x) = n := by
  have hyear : 0 ≤ n / 12 := Int.ediv_nonneg hn (by decide)
  have hmonth : 0 ≤ n % 12 + 1 ∧ n % 12 + 1 ≤ 99 := by omega
  obtain ⟨hlo, hhi⟩ := getUTCMonth_bounds x
  rw [List.isPrefixOf_iff_prefix, monthIndex_eq]
  constructor
  · rintro ⟨rest, hrest⟩
    rw [List.append_assoc, List.cons_append, dayKey] at hrest
    have hfull : 0 ≤ getUTCFullYear x := by
      -- a year before the year 0 begins with a dash
      by_contra hneg
      have hdash : itoa (getUTCFullYear x) =
          '-' :: Nat.toDigits 10 (getUTCFullYear x).natAbs := if_pos (by omega)
      rw [itoa_of_nonneg hyear, hdash] at hrest
      cases hdigits : Nat.toDigits 10 (n / 12).natAbs with
      | nil => exact Nat.toDigits_ne_nil hdigits
      | cons c cs =>
        rw [hdigits] at hrest
        have hc : c = '-' := (List.cons.inj hrest).1
        exact dash_not_mem_toDigits (n / 12).natAbs (by
          rw [hdigits, hc]
          exact List.mem_cons_self)
    obtain ⟨hy, hbehind⟩ := dashed_left_inj (dash_not_mem_itoa hyear) (dash_not_mem_itoa hfull)
      hrest
    have hm : padStart2 (n % 12 + 1) = padStart2 (getUTCMonth x + 1) := by
      refine (List.append_inj hbehind ?_).1
      rw [length_padStart2 hmonth.1 hmonth.2, length_padStart2 (by omega) (by omega)]
    have := itoa_inj hy
    have := padStart2_inj hmonth.1 (by omega) hm
    omega
  · intro h
    have hy : getUTCFullYear x = n / 12 := by omega
    have hm : getUTCMonth x = n % 12 := by omega
    rw [dayKey, hy, hm]
    exact ⟨'-' :: padStart2 (getUTCDate x), by simp⟩

/-- The key of an invalid date begins with no year. -/
theorem not_isPrefixOf_invalid {n : Int} (hn : 0 ≤ n) (rest : Text) :
    (itoa (n / 12) ++ rest).isPrefixOf "NaN-NaN-NaN".toList = false := by
  have hyear : 0 ≤ n / 12 := Int.ediv_nonneg hn (by decide)
  rw [itoa_of_nonneg hyear]
  cases hdigits : Nat.toDigits 10 (n / 12).natAbs with
  | nil => exact absurd hdigits Nat.toDigits_ne_nil
  | cons c cs =>
    have hc : c.isDigit = true := Nat.isDigit_of_mem_toDigits (by decide) (by decide)
      (hdigits ▸ List.mem_cons_self)
    rw [Bool.eq_false_iff, ne_eq, List.isPrefixOf_iff_prefix]
    rintro ⟨more, hmore⟩
    have hN : c = 'N' := (List.cons.inj hmore).1
    rw [hN] at hc
    exact absurd hc (by decide)

/-! ### The page is the one in terms of days -/

/-- The key that is made of a month and a day. -/
theorem key_eq {n : Int} {k : Nat} (hk : k < Gregorian.monthLength n) :
    itoa (n / 12) ++ '-' :: (padStart2 (n % 12 + 1) ++ '-' :: padStart2 ((k : Int) + 1)) =
      dayKey (Gregorian.firstDay n + k) := by
  obtain ⟨hy, hm, hd⟩ := fields_of_lt hk
  rw [dayKey, hy, hm, hd]

theorem monthCells_eq {n : Int} (hn : 1200 ≤ n) :
    monthCells today selectedKey (bucket date items) (n / 12) (n % 12) =
      ((monthOf date items today selectedKey n).lead,
        (monthOf date items today selectedKey n).cells) := by
  have hyear : 100 ≤ n / 12 := by omega
  have hsplit : 12 * (n / 12) + n % 12 = n := by omega
  unfold monthCells monthOf
  dsimp only
  rw [dateUTC_first hyear, getUTCDate_last hyear, hsplit, Int.toNat_natCast]
  congr 1
  apply List.map_congr_left
  intro k hk
  rw [List.mem_range] at hk
  obtain ⟨-, hm, hd⟩ := fields_of_lt hk
  rw [key_eq hk, under_bucket, cellOf, hm, hd]

/-- The number of a month counts the entries that expire in it. -/
theorem count_eq {n : Int} (hn : 0 ≤ n) :
    (((bucket date items).filter fun g =>
      (itoa (n / 12) ++ '-' :: padStart2 (n % 12 + 1)).isPrefixOf g.1).map
        fun g => g.2.length).sum = items.countP fun it => expiryMonth date it = some n := by
  rw [bucket, Group.sum_groups]
  congr 1
  funext it
  unfold keyOf expiryMonth expiryDay
  cases date it.cert.expiresAt with
  | none => exact (not_isPrefixOf_invalid hn _).trans (decide_eq_false (by simp)).symm
  | some ms =>
    rw [Bool.eq_iff_iff, isPrefixOf_dayKey hn]
    simp

theorem monthCard_eq (hyear : 100 ≤ getUTCFullYear anchor) (i : Nat) :
    monthCard today selectedKey (bucket date items) anchor i =
      monthOf date items today selectedKey (anchorMonth anchor + i) := by
  obtain ⟨hlo, hhi⟩ := getUTCMonth_bounds anchor
  have hmonth : anchorMonth anchor = 12 * getUTCFullYear anchor + getUTCMonth anchor :=
    monthIndex_eq anchor
  have hfirst : dateUTC (getUTCFullYear anchor) (getUTCMonth anchor + i) 1 =
      Gregorian.firstDay (anchorMonth anchor + i) := by
    rw [dateUTC_first hyear, hmonth, Int.add_assoc]
  have hpos := (Gregorian.monthLength_bounds (anchorMonth anchor + i)).1
  obtain ⟨hy, hm, -⟩ := @fields_of_lt (anchorMonth anchor + i) 0 (by omega)
  rw [Int.ofNat_zero, Int.add_zero] at hy hm
  have hn : 1200 ≤ anchorMonth anchor + i := by omega
  unfold monthCard
  dsimp only
  rw [hfirst, hy, hm, monthCells_eq hn, count_eq (by omega)]
  rfl

/-- The page is the one in terms of days. -/
theorem render_eq (hyear : 100 ≤ getUTCFullYear anchor) :
    render date items today selectedKey anchor =
      pageOf date items today selectedKey (anchorMonth anchor) := by
  unfold render pageOf
  apply List.map_congr_left
  intro i _
  exact monthCard_eq hyear i

/-! ### What the page shows -/

variable {n : Int}

/-- The days of twelve months in a row. -/
theorem days_eq (n : Int) (i : Nat) :
    (List.range i).flatMap (fun (j : Nat) => (List.range (Gregorian.monthLength (n + j))).map
      fun (k : Nat) => Gregorian.firstDay (n + j) + (k : Int)) =
    (List.range (Gregorian.firstDay (n + i) - Gregorian.firstDay n).toNat).map
      fun (k : Nat) => Gregorian.firstDay n + (k : Int) := by
  induction i with
  | zero => simp
  | succ i ih =>
    have hmono : Gregorian.firstDay n ≤ Gregorian.firstDay (n + i) := by
      rcases Nat.eq_zero_or_pos i with rfl | hpos
      · simp
      · have := @Gregorian.firstDay_add_le n (n + i) (by omega)
        omega
    have hnext : Gregorian.firstDay (n + (i + 1 : Nat)) =
        Gregorian.firstDay (n + i) + Gregorian.monthLength (n + i) := by
      rw [← Gregorian.firstDay_succ]
      congr 1
      omega
    have hlength : (Gregorian.firstDay (n + (i + 1 : Nat)) - Gregorian.firstDay n).toNat =
        (Gregorian.firstDay (n + i) - Gregorian.firstDay n).toNat +
          Gregorian.monthLength (n + i) := by omega
    rw [List.range_succ, List.flatMap_append, ih, hlength, List.range_add, List.map_append,
      List.flatMap_singleton, List.map_map]
    congr 1
    apply List.map_congr_left
    intro k _
    simp only [Function.comp]
    omega

/-- The cells of the page are those of its days, in a row. -/
theorem cells_pageOf : (pageOf date items today selectedKey n).flatMap MonthCard.cells =
    (List.range (Gregorian.firstDay (n + 12) - Gregorian.firstDay n).toNat).map
      fun (k : Nat) => cellOf date items today selectedKey (Gregorian.firstDay n + k) := by
  have hdays := congrArg (List.map (cellOf date items today selectedKey)) (days_eq n 12)
  rw [List.map_flatMap, List.map_map] at hdays
  rw [pageOf, List.flatMap_map]
  refine Eq.trans ?_ hdays
  congr 1
  funext i
  rw [List.map_map]
  rfl

/-- An entry is in the cell of the day it expires on, and in no other. -/
theorem mem_on_cellOf {it : Item} {x : Int} : it ∈ (cellOf date items today selectedKey x).on ↔
    it ∈ items ∧ expiryDay date it = some x := by
  change it ∈ items.filter (fun it => expiryDay date it = some x) ↔ _
  rw [List.mem_filter, decide_eq_true_iff]

/-- The class of a cell is that of the worst of its entries. -/
theorem level_dayCell {key : Text} {on : List Item} {month d : Int} (hon : on ≠ []) :
    ∃ it ∈ on, (dayCell today selectedKey key on month d).level =
        some (expiryLevel it.daysRemaining) ∧
      ∀ other ∈ on, urgency (expiryLevel other.daysRemaining) ≤
        urgency (expiryLevel it.daysRemaining) := by
  obtain ⟨first, rest, rfl⟩ := List.exists_cons_of_ne_nil hon
  have hworst : ∀ w : Int, (∃ it ∈ first :: rest, w = it.daysRemaining) →
      ∀ items : List Item, (∀ it ∈ items, it ∈ first :: rest) →
      ∃ it ∈ first :: rest,
        items.foldl (fun w it => min w it.daysRemaining) w = it.daysRemaining ∧
        it.daysRemaining ≤ w ∧ ∀ other ∈ items, it.daysRemaining ≤ other.daysRemaining := by
    intro w hw items hitems
    induction items generalizing w with
    | nil =>
      obtain ⟨it, hit, rfl⟩ := hw
      exact ⟨it, hit, rfl, le_rfl, fun other h => absurd h List.not_mem_nil⟩
    | cons x xs ih =>
      have hmin : ∃ it ∈ first :: rest, min w x.daysRemaining = it.daysRemaining := by
        rcases min_choice w x.daysRemaining with hleft | hright
        · rw [hleft]
          exact hw
        · exact ⟨x, hitems x List.mem_cons_self, hright⟩
      obtain ⟨it, hit, hfold, hle, hall⟩ := ih (min w x.daysRemaining) hmin
        fun y hy => hitems y (List.mem_cons_of_mem x hy)
      refine ⟨it, hit, hfold, hle.trans (min_le_left _ _), fun other hother => ?_⟩
      rcases List.mem_cons.mp hother with rfl | hlater
      · exact hle.trans (min_le_right _ _)
      · exact hall other hlater
  obtain ⟨it, hit, hfold, hle, hall⟩ := hworst first.daysRemaining
    ⟨first, List.mem_cons_self, rfl⟩ rest fun y hy => List.mem_cons_of_mem first hy
  refine ⟨it, hit, ?_, fun other hother => urgency_antitone ?_⟩
  · simp only [dayCell, hfold]
  · rcases List.mem_cons.mp hother with rfl | hlater
    · exact hle
    · exact hall other hlater

/-- The cells of a month hold the entries its number counts. -/
theorem count_monthOf : (monthOf date items today selectedKey n).count =
    ((monthOf date items today selectedKey n).cells.map fun cell => cell.on.length).sum := by
  have hnodup : ((List.range (Gregorian.monthLength n)).map fun (k : Nat) =>
      some (Gregorian.firstDay n + (k : Int))).Nodup := by
    refine List.nodup_range.map fun a b h => ?_
    have := Option.some.inj h
    omega
  have hsum := @Group.sum_filter _ _ _ (expiryDay date) _ hnodup items
  rw [List.map_map] at hsum
  unfold monthOf
  dsimp only
  rw [List.map_map]
  refine Eq.trans ?_ hsum.symm
  congr 1
  funext it
  rw [decide_eq_decide, List.mem_map, expiryMonth]
  cases expiryDay date it with
  | none => simp
  | some x =>
    simp only [Option.map_some, Option.some.injEq, List.mem_range]
    constructor
    · intro h
      obtain ⟨k, hk, hx⟩ := Gregorian.exists_day h
      exact ⟨k, hk, hx.symm⟩
    · rintro ⟨k, hk, rfl⟩
      rw [Gregorian.monthIndex_ofDays_iff]
      omega

/-! ### The buttons -/

/-- A button moves the page by its months. -/
theorem anchorMonth_shiftMonths (hyear : 100 ≤ getUTCFullYear anchor) (k : Int) :
    anchorMonth (shiftMonths anchor k) = anchorMonth anchor + k := by
  have hmonth : anchorMonth anchor = 12 * getUTCFullYear anchor + getUTCMonth anchor :=
    monthIndex_eq anchor
  have hpos := (Gregorian.monthLength_bounds (anchorMonth anchor + k)).1
  have hfirst : shiftMonths anchor k = Gregorian.firstDay (anchorMonth anchor + k) := by
    rw [shiftMonths, dateUTC_first hyear, hmonth, Int.add_assoc]
  rw [anchorMonth, hfirst, Gregorian.monthIndex_ofDays_iff]
  omega

/-- The page shows what expires on the days of its months, all of it and nothing else. -/
structure Exact (date : Text → Option Int) (items : List Item) (n : Int)
    (page : List MonthCard) : Prop where
  /-- The months are twelve in a row. -/
  months : page.map (fun c => 12 * c.year + c.month) = (List.range 12).map fun (i : Nat) => n + i
  /-- Their days are in a row, each once. -/
  days : (page.flatMap MonthCard.cells).map DayCell.key =
    (List.range (Gregorian.firstDay (n + 12) - Gregorian.firstDay n).toNat).map
      fun (k : Nat) => dayKey (Gregorian.firstDay n + k)
  /-- Every day stands under its day of the week. -/
  column : ∀ c ∈ page, ∀ (i : Nat) cell x, c.cells[i]? = some cell → cell.key = dayKey x →
    (c.lead + i) % 7 = mondayIndex x
  /-- A cell has the entries that expire on its day. -/
  on : ∀ cell ∈ page.flatMap MonthCard.cells, ∀ x, cell.key = dayKey x →
    cell.on = items.filter fun it => expiryDay date it = some x
  /-- An entry is in a cell just if it expires within the months. -/
  shown : ∀ it ∈ items, ∀ x, expiryDay date it = some x →
    ((∃ cell ∈ page.flatMap MonthCard.cells, it ∈ cell.on) ↔
      n ≤ Gregorian.monthIndex (Gregorian.ofDays x) ∧
        Gregorian.monthIndex (Gregorian.ofDays x) < n + 12)
  /-- The number of a month is that of the entries in its cells. -/
  count : ∀ c ∈ page, c.count = (c.cells.map fun cell => cell.on.length).sum
  /-- A cell has the class of the worst of its entries. -/
  level : ∀ cell ∈ page.flatMap MonthCard.cells, cell.on ≠ [] → ∃ it ∈ cell.on,
    cell.level = some (expiryLevel it.daysRemaining) ∧ ∀ other ∈ cell.on,
      urgency (expiryLevel other.daysRemaining) ≤ urgency (expiryLevel it.daysRemaining)

theorem exact_pageOf (date : Text → Option Int) (items : List Item) (today : Text)
    (selectedKey : Option Text) (n : Int) :
    Exact date items n (pageOf date items today selectedKey n) := by
  have hcells := @cells_pageOf date items today selectedKey n
  have hmem : ∀ cell ∈ (pageOf date items today selectedKey n).flatMap MonthCard.cells,
      ∃ y, Gregorian.firstDay n ≤ y ∧ y < Gregorian.firstDay (n + 12) ∧
        cell = cellOf date items today selectedKey y := by
    intro cell hcell
    rw [hcells, List.mem_map] at hcell
    obtain ⟨k, hk, rfl⟩ := hcell
    rw [List.mem_range] at hk
    exact ⟨_, by omega, by omega, rfl⟩
  constructor
  case months =>
    rw [pageOf, List.map_map]
    apply List.map_congr_left
    intro i _
    simp only [Function.comp, monthOf]
    omega
  case days =>
    rw [hcells, List.map_map]
    rfl
  case column =>
    intro c hc i cell x hi hkey
    obtain ⟨j, -, rfl⟩ := List.mem_map.mp hc
    simp only [monthOf, List.getElem?_map, Option.map_eq_some_iff] at hi
    obtain ⟨k, hk, rfl⟩ := hi
    obtain ⟨hlt, hik⟩ := List.getElem?_eq_some_iff.mp hk
    rw [List.getElem_range] at hik
    subst hik
    have hx : x = Gregorian.firstDay (n + j) + i := (dayKey_inj hkey).symm
    subst hx
    simp only [monthOf, mondayIndex, getUTCDay]
    omega
  case on =>
    intro cell hcell x hkey
    obtain ⟨y, -, -, rfl⟩ := hmem cell hcell
    rw [← dayKey_inj hkey]
    rfl
  case shown =>
    intro it hit x hx
    rw [Gregorian.le_monthIndex_iff, ← Int.not_le, Gregorian.le_monthIndex_iff, Int.not_le]
    constructor
    · rintro ⟨cell, hcell, hon⟩
      obtain ⟨y, hlo, hhi, rfl⟩ := hmem cell hcell
      obtain ⟨-, hy⟩ := mem_on_cellOf.mp hon
      obtain rfl : x = y := Option.some.inj (hx.symm.trans hy)
      exact ⟨hlo, hhi⟩
    · rintro ⟨hlo, hhi⟩
      refine ⟨cellOf date items today selectedKey x, ?_, mem_on_cellOf.mpr ⟨hit, hx⟩⟩
      rw [hcells, List.mem_map]
      refine ⟨(x - Gregorian.firstDay n).toNat, List.mem_range.mpr (by omega), ?_⟩
      congr 1
      omega
  case count =>
    intro c hc
    obtain ⟨j, -, rfl⟩ := List.mem_map.mp hc
    exact count_monthOf
  case level =>
    intro cell hcell hon
    obtain ⟨y, -, -, rfl⟩ := hmem cell hcell
    exact level_dayCell hon

/-- At every anchor, and so after any use of the buttons, the page shows what expires in the twelve
months from the anchor's: every entry in the cell of its day, and counted with its month. The
buttons lead to the twelve months behind and in front of these. -/
theorem timeline_exact (date : Text → Option Int) (items : List Item) (today : Text)
    (selectedKey : Option Text) (anchor : Int) (hyear : 100 ≤ getUTCFullYear anchor) :
    Exact date items (anchorMonth anchor) (render date items today selectedKey anchor) ∧
      ∀ k, anchorMonth (shiftMonths anchor k) = anchorMonth anchor + k := by
  rw [render_eq hyear]
  exact ⟨exact_pageOf date items today selectedKey _, anchorMonth_shiftMonths hyear⟩

/-- 31 December 2026, and two entries that expire on it and on the day after. -/
def newYearsEve : List Item :=
  [{ cert := { name := "old".toList, kind := "endpoint".toList, expiresAt := "a".toList },
     daysRemaining := 3 },
    { cert := { name := "new".toList, kind := "endpoint".toList, expiresAt := "b".toList },
      daysRemaining := 4 }]

theorem timeline_exact_newYearsEve :
    100 ≤ getUTCFullYear 739980 ∧
      Exact (fun iso => if iso = "a".toList then some 1798761599000 else some 1798761600000)
        newYearsEve (anchorMonth 739980)
        (render (fun iso => if iso = "a".toList then some 1798761599000 else some 1798761600000)
          newYearsEve [] none 739980) := by
  have hyear : 100 ≤ getUTCFullYear 739980 := by decide
  exact ⟨hyear, (timeline_exact _ newYearsEve [] none 739980 hyear).1⟩

end CertGuard.Timeline
