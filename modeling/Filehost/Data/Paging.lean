import Mathlib.Data.List.Sort

namespace Filehost.Data.Paging

/-! # Paging through rows

Every page is read from an order of its own.  Rows are sorted by a key, the highest first, and
rows of one key stand in any order. -/

variable {Row Key : Type} [LinearOrder Key] {key : Row → Key} {rows order : List Row}

def Descending (key : Row → Key) (order : List Row) : Prop :=
  order.Pairwise fun earlier later => key later ≤ key earlier

/-- What `ORDER BY key DESC` promises of the rows it arranges. -/
structure Sorting (key : Row → Key) where
  arrange : List Row → List Row
  perm : ∀ rows, (arrange rows).Perm rows
  descending : ∀ rows, Descending key (arrange rows)

/-- `LIMIT size OFFSET offset`. -/
def page (order : List Row) (size offset : Nat) : List Row := (order.drop offset).take size

/-- The pages a client reads by steps of `stride`, each sorted anew. -/
def pages (sorts : Nat → Sorting key) (rows : List Row) (size stride index : Nat) : List Row :=
  page ((sorts index).arrange rows) size (index * stride)

/-- As many pages as have room for the rows contain each of them once. -/
def MissesNothing (answers : Nat → List Row) (rows : List Row) (stride : Nat) : Prop :=
  ∀ count, rows.length ≤ count * stride → ((List.range count).flatMap answers).Perm rows

/-- The number of rows that stand before a key in every order. -/
def before (key : Row → Key) (rows : List Row) (bound : Key) : Nat :=
  rows.countP fun row => decide (bound < key row)

/-- The number of rows that stand before a key or have it. -/
def through (key : Row → Key) (rows : List Row) (bound : Key) : Nat :=
  rows.countP fun row => decide (bound ≤ key row)

/-- No page begins inside a group of rows with one key. -/
def GroupsWhole (key : Row → Key) (rows : List Row) (size : Nat) : Prop :=
  ∀ row ∈ rows, ∀ index,
    index * size ≤ before key rows (key row) ∨ through key rows (key row) ≤ index * size

def sortByKey (key : Row → Key) (rows : List Row) : List Row :=
  rows.insertionSort fun earlier later => key later ≤ key earlier

theorem sortByKey_perm (key : Row → Key) (rows : List Row) : (sortByKey key rows).Perm rows :=
  List.perm_insertionSort _ rows

theorem sortByKey_descending (key : Row → Key) (rows : List Row) :
    Descending key (sortByKey key rows) := by
  have transitive : IsTrans Row fun earlier later => key later ≤ key earlier :=
    ⟨fun _ _ _ left right => right.trans left⟩
  have total : Std.Total fun earlier later : Row => key later ≤ key earlier :=
    ⟨fun first second => le_total (key second) (key first)⟩
  exact List.pairwise_insertionSort _ rows

/-- Rows of one key keep the order in which they are stored. -/
def Sorting.stable (key : Row → Key) : Sorting key where
  arrange := sortByKey key
  perm := sortByKey_perm key
  descending := sortByKey_descending key

/-- Rows of one key change places with each other. -/
def Sorting.backwards (key : Row → Key) : Sorting key where
  arrange rows := sortByKey key rows.reverse
  perm rows := (sortByKey_perm key rows.reverse).trans rows.reverse_perm
  descending rows := sortByKey_descending key rows.reverse

/-- Every order that the key allows is one that a database may choose. -/
theorem exists_sorting (perm : order.Perm rows) (descending : Descending key order) :
    ∃ sorting : Sorting key, sorting.arrange rows = order := by
  classical
  refine ⟨⟨fun other => if other = rows then order else sortByKey key other, ?_, ?_⟩, if_pos rfl⟩
  · intro other
    split
    · rename_i same
      exact same ▸ perm
    · exact sortByKey_perm key other
  · intro other
    split
    · exact descending
    · exact sortByKey_descending key other

/-! ## Positions in an order -/

section Positions

variable {front back : List Row} {row item : Row} {bound : Key}

/-- Where the chosen rows come first, a row is chosen if its position says so. -/
theorem chosen_iff_lt_countP {chosen : Row → Bool}
    (first : (front ++ item :: back).Pairwise fun earlier later => chosen later → chosen earlier) :
    chosen item ↔ front.length < (front ++ item :: back).countP chosen := by
  obtain ⟨-, behind, across⟩ := List.pairwise_append.mp first
  rw [List.countP_append]
  constructor
  · intro taken
    have all : front.countP chosen = front.length :=
      List.countP_eq_length.mpr fun earlier member => across earlier member item (by simp) taken
    rw [all, List.countP_cons_of_pos taken]
    omega
  · intro position
    by_contra skipped
    have none : back.countP chosen = 0 := by
      refine List.countP_eq_zero.mpr fun later member taken => skipped ?_
      exact (List.pairwise_cons.mp behind).1 later member taken
    rw [List.countP_cons_of_neg skipped, none] at position
    have bounded := List.countP_le_length (p := chosen) (l := front)
    omega

theorem take_countP {chosen : Row → Bool}
    (first : order.Pairwise fun earlier later => chosen later → chosen earlier) :
    order.take (order.countP chosen) = order.filter chosen := by
  induction order with
  | nil => rfl
  | cons item rest ih =>
      obtain ⟨behind, later⟩ := List.pairwise_cons.mp first
      by_cases taken : chosen item = true
      · rw [List.countP_cons_of_pos taken, List.take_succ_cons, List.filter_cons_of_pos taken,
          ih later]
      · have none : ∀ row ∈ rest, ¬chosen row = true := fun row member later =>
          taken (behind row member later)
        rw [List.countP_cons_of_neg taken, List.countP_eq_zero.mpr none,
          List.filter_cons_of_neg taken, List.filter_eq_nil_iff.mpr none, List.take_zero]

theorem Descending.above (descending : Descending key order) (bound : Key) :
    order.Pairwise fun earlier later => decide (bound < key later) → decide (bound < key earlier) :=
  descending.imp fun sorted high => by
    rw [decide_eq_true_eq] at high ⊢
    exact high.trans_le sorted

theorem Descending.atLeast (descending : Descending key order) (bound : Key) :
    order.Pairwise fun earlier later => decide (bound ≤ key later) → decide (bound ≤ key earlier) :=
  descending.imp fun sorted high => by
    rw [decide_eq_true_eq] at high ⊢
    exact high.trans sorted

theorem lt_key_iff (descending : Descending key (front ++ item :: back)) :
    bound < key item ↔ front.length < before key (front ++ item :: back) bound := by
  rw [before, ← chosen_iff_lt_countP (descending.above bound), decide_eq_true_eq]

theorem le_key_iff (descending : Descending key (front ++ item :: back)) :
    bound ≤ key item ↔ front.length < through key (front ++ item :: back) bound := by
  rw [through, ← chosen_iff_lt_countP (descending.atLeast bound), decide_eq_true_eq]

/-- The rows at the positions of a group have its key. -/
theorem key_eq_of_position (descending : Descending key (front ++ item :: back))
    (lower : before key (front ++ item :: back) bound ≤ front.length)
    (upper : front.length < through key (front ++ item :: back) bound) : key item = bound := by
  have notAbove : ¬bound < key item := fun above => by
    have position := (lt_key_iff descending).mp above
    omega
  exact le_antisymm (not_lt.mp notAbove) ((le_key_iff descending).mpr upper)

theorem split_at {position : Nat} (inside : position < order.length) :
    ∃ front item back, order = front ++ item :: back ∧ front.length = position := by
  refine ⟨order.take position, order[position], order.drop (position + 1), ?_, ?_⟩
  · rw [← List.drop_eq_getElem_cons inside, List.take_append_drop]
  · exact List.length_take_of_le inside.le

theorem split_pair {position : Nat} (positive : 0 < position) (inside : position < order.length) :
    ∃ front left right back, order = front ++ left :: right :: back ∧
      front.length + 1 = position := by
  obtain ⟨front, left, rest, rfl, earlier⟩ := split_at (Nat.sub_lt_of_lt inside : position - 1 < _)
  cases rest with
  | nil =>
      rw [List.length_append, List.length_singleton] at inside
      omega
  | cons right back => exact ⟨front, left, right, back, rfl, by omega⟩

theorem descending_swap {left right : Row} (same : key left = key right)
    (descending : Descending key (front ++ left :: right :: back)) :
    Descending key (front ++ right :: left :: back) := by
  rw [Descending, ← List.pairwise_map (R := fun earlier later => later ≤ earlier)] at descending ⊢
  simpa [same] using descending

theorem before_perm {other : List Row} (perm : order.Perm other) :
    before key order bound = before key other bound := perm.countP_eq _

theorem through_perm {other : List Row} (perm : order.Perm other) :
    through key order bound = through key other bound := perm.countP_eq _

/-- A cut that splits no group has the same rows before it in every order. -/
theorem take_perm_of_whole {other : List Row} {cut : Nat} (perm : order.Perm other)
    (descending : Descending key order) (otherDescending : Descending key other)
    (whole : ∀ row ∈ order,
      cut ≤ before key order (key row) ∨ through key order (key row) ≤ cut) :
    (order.take cut).Perm (other.take cut) := by
  by_cases inside : cut < order.length
  · obtain ⟨front, item, back, rfl, position⟩ := split_at inside
    have notBefore : ¬front.length < before key (front ++ item :: back) (key item) := fun early =>
      lt_irrefl _ ((lt_key_iff descending).mpr early)
    have notThrough : front.length < through key (front ++ item :: back) (key item) :=
      (le_key_iff descending).mp le_rfl
    have exactly : cut = before key (front ++ item :: back) (key item) := by
      have sides := whole item (by simp)
      omega
    rw [exactly]
    nth_rewrite 2 [before_perm perm]
    rw [before, before, take_countP (descending.above _), take_countP (otherDescending.above _)]
    exact perm.filter _
  · have longer : other.length ≤ cut := perm.length_eq ▸ not_lt.mp inside
    rwa [List.take_of_length_le (not_lt.mp inside), List.take_of_length_le longer]

end Positions

/-! ## Pages -/

theorem page_perm {other : List Row} {size offset : Nat}
    (earlier : (order.take offset).Perm (other.take offset))
    (later : (order.take (offset + size)).Perm (other.take (offset + size))) :
    (page order size offset).Perm (page other size offset) := by
  rw [List.take_add, List.take_add] at later
  exact (List.perm_append_left_iff (other.take offset)).mp
    ((earlier.symm.append_right _).trans later)

/-- Where the pages cut no group, they add up whatever order each is read from. -/
theorem flatMap_page_perm {size : Nat} (sorts : Nat → Sorting key)
    (whole : GroupsWhole key rows size) (count : Nat) :
    ((List.range count).flatMap (pages sorts rows size size)).Perm
      (((Sorting.stable key).arrange rows).take (count * size)) := by
  have cuts (sorting : Sorting key) (index : Nat) :
      ((sorting.arrange rows).take (index * size)).Perm
        (((Sorting.stable key).arrange rows).take (index * size)) := by
    have perm := sorting.perm rows
    refine take_perm_of_whole (perm.trans ((Sorting.stable key).perm rows).symm)
      (sorting.descending rows) ((Sorting.stable key).descending rows) fun row member => ?_
    rw [before_perm perm, through_perm perm]
    exact whole row (perm.mem_iff.mp member) index
  induction count with
  | zero => simp
  | succ count ih =>
      have next : (count + 1) * size = count * size + size := Nat.succ_mul count size
      have last : (page ((sorts count).arrange rows) size (count * size)).Perm
          (page ((Sorting.stable key).arrange rows) size (count * size)) :=
        page_perm (cuts (sorts count) count) (next ▸ cuts (sorts count) (count + 1))
      rw [List.range_succ, List.flatMap_append, List.flatMap_singleton, next, List.take_add]
      exact ih.append last

theorem mem_page {front back : List Row} {item : Row} {size offset : Nat}
    (lower : offset ≤ front.length) (upper : front.length < offset + size) :
    item ∈ page (front ++ item :: back) size offset := by
  have found : (page (front ++ item :: back) size offset)[front.length - offset]? = some item := by
    rw [page, List.getElem?_take_of_lt (by omega), List.getElem?_drop, Nat.add_sub_of_le lower]
    simp
  exact List.mem_of_getElem? found

theorem eq_of_mem_pages {answers : Nat → List Row} {count left right : Nat} {row : Row}
    (nodup : ((List.range count).flatMap answers).Nodup) (leftBound : left < count)
    (rightBound : right < count) (inLeft : row ∈ answers left) (inRight : row ∈ answers right) :
    left = right := by
  have apart := List.pairwise_iff_getElem.mp (List.nodup_flatMap.mp nodup).2
  by_contra different
  rcases Nat.lt_or_gt_of_ne different with less | less
  · exact apart left right (by simpa using leftBound) (by simpa using rightBound) less
      (by simpa using inLeft) (by simpa using inRight)
  · exact apart right left (by simpa using rightBound) (by simpa using leftBound) less
      (by simpa using inRight) (by simpa using inLeft)

/-- The rows on both sides of a cut through a group have one key. -/
theorem neighbours_of_cut {cut : Nat} {bound : Key} (descending : Descending key order)
    (lower : before key order bound < cut) (upper : cut < through key order bound) :
    ∃ front left right back, order = front ++ left :: right :: back ∧ front.length + 1 = cut ∧
      key left = key right := by
  have inside : cut < order.length := upper.trans_le List.countP_le_length
  obtain ⟨front, left, right, back, rfl, position⟩ := split_pair (by omega) inside
  refine ⟨front, left, right, back, rfl, position, ?_⟩
  have leftKey : key left = bound := key_eq_of_position descending (by omega) (by omega)
  have regrouped : front ++ left :: right :: back = (front ++ [left]) ++ right :: back := by simp
  have length : (front ++ [left]).length = cut := by simpa using position
  rw [regrouped] at descending lower upper
  exact leftKey.trans (key_eq_of_position descending (by omega) (by omega)).symm

/-- Two neighbours of one key may change places, and between two pages one of them is then read
twice. -/
theorem groupsWhole_of_missesNothing {size : Nat} (positive : 0 < size) (nodup : rows.Nodup)
    (complete : ∀ sorts : Nat → Sorting key,
      MissesNothing (pages sorts rows size size) rows size) :
    GroupsWhole key rows size := by
  intro row member index
  by_contra inGroup
  rw [not_or, not_le, not_le] at inGroup
  obtain ⟨lower, upper⟩ := inGroup
  let usual := Sorting.stable key
  have perm := usual.perm rows
  have descending := usual.descending rows
  obtain ⟨front, left, right, back, order, position, same⟩ := neighbours_of_cut descending
    ((before_perm perm).trans_lt lower) (upper.trans_eq (through_perm perm).symm)
  rw [order] at perm descending
  obtain ⟨swapped, arranged⟩ := exists_sorting
    (((List.Perm.swap left right back).append_left front).trans perm)
    (descending_swap same descending)
  -- up to the cut the database keeps its usual order, from there on it reads the other one
  let sorts (number : Nat) : Sorting key := if number < index then usual else swapped
  have positiveIndex : 0 < index := by
    refine Nat.pos_of_ne_zero fun zero => ?_
    rw [zero, Nat.zero_mul] at position
    omega
  have previous : (index - 1) * size + size = index * size := by
    rw [← Nat.succ_mul, Nat.succ_eq_add_one, Nat.sub_add_cancel positiveIndex]
  have endsBefore : left ∈ pages sorts rows size size (index - 1) := by
    rw [pages, show sorts (index - 1) = usual from if_pos (by omega), order]
    exact mem_page (by omega) (by omega)
  have beginsBehind : left ∈ pages sorts rows size size index := by
    have regrouped : front ++ right :: left :: back = (front ++ [right]) ++ left :: back := by simp
    have length : (front ++ [right]).length = index * size := by simpa using position
    rw [pages, show sorts index = swapped from if_neg (lt_irrefl _), arranged, regrouped]
    exact mem_page (by omega) (by omega)
  have some := List.length_pos_of_mem member
  have room : rows.length ≤ (index + rows.length) * size :=
    (Nat.le_add_left _ _).trans (Nat.le_mul_of_pos_right _ positive)
  have once := (complete sorts (index + rows.length) room).nodup_iff.mpr nodup
  have samePage := eq_of_mem_pages once (by omega) (by omega) endsBefore beginsBehind
  omega

theorem missesNothing_iff {size : Nat} (positive : 0 < size) (nodup : rows.Nodup) :
    (∀ sorts : Nat → Sorting key,
      MissesNothing (pages sorts rows size size) rows size) ↔
      GroupsWhole key rows size := by
  refine ⟨groupsWhole_of_missesNothing positive nodup, fun whole sorts count covered => ?_⟩
  refine (flatMap_page_perm sorts whole count).trans ?_
  have perm := (Sorting.stable key).perm rows
  rw [List.take_of_length_le (perm.length_eq.trans_le covered)]
  exact perm

/-- The row behind a first page that ends too early is on no page. -/
theorem length_le_of_missesNothing {size stride : Nat} (shorter : size < stride)
    (nodup : rows.Nodup) (sorting : Sorting key)
    (complete : MissesNothing (pages (fun _ => sorting) rows size stride) rows stride) :
    rows.length ≤ size := by
  by_contra more
  have perm := sorting.perm rows
  obtain ⟨front, item, back, order, position⟩ :=
    split_at (perm.length_eq ▸ not_le.mp more : size < (sorting.arrange rows).length)
  have covered := complete rows.length (Nat.le_mul_of_pos_right _ (by omega))
  rw [order] at perm
  have member : item ∈ rows := perm.mem_iff.mp (by simp)
  obtain ⟨index, -, listed⟩ := List.mem_flatMap.mp (covered.mem_iff.mpr member)
  have once := perm.nodup_iff.mpr nodup
  rw [List.nodup_middle, List.nodup_cons, List.mem_append, not_or] at once
  rw [pages, order, page] at listed
  cases index with
  | zero =>
      rw [Nat.zero_mul, List.drop_zero, ← position, List.take_left] at listed
      exact once.1.1 listed
  | succ index =>
      have beyond : stride ≤ (index + 1) * stride := Nat.le_mul_of_pos_left stride index.succ_pos
      have length : (front ++ [item]).length = size + 1 := by simp [position]
      obtain ⟨further, offset⟩ :=
        Nat.exists_eq_add_of_le (by omega : (front ++ [item]).length ≤ (index + 1) * stride)
      have regrouped : front ++ item :: back = (front ++ [item]) ++ back := by simp
      have dropped := List.mem_of_mem_take listed
      rw [offset, regrouped, ← List.drop_drop, List.drop_left] at dropped
      exact once.1.2 (List.mem_of_mem_drop dropped)

/-- One page has room for all the rows. -/
theorem missesNothing_of_length_le {size stride : Nat} (shorter : size ≤ stride)
    (few : rows.length ≤ size) (sorts : Nat → Sorting key) :
    MissesNothing (pages sorts rows size stride) rows stride := by
  intro count covered
  have length (index : Nat) := ((sorts index).perm rows).length_eq
  have others (index : Nat) : pages sorts rows size stride (index + 1) = [] := by
    have behind : rows.length ≤ (index + 1) * stride :=
      (few.trans shorter).trans (Nat.le_mul_of_pos_left stride index.succ_pos)
    rw [pages, page, List.drop_eq_nil_of_le ((length _).trans_le behind), List.take_nil]
  cases count with
  | zero =>
      rw [Nat.zero_mul, Nat.le_zero, List.length_eq_zero_iff] at covered
      simp [covered]
  | succ count =>
      have behind : ((List.range count).map Nat.succ).flatMap (pages sorts rows size stride) = [] := by
        rw [List.flatMap_map]
        exact List.flatMap_eq_nil_iff.mpr fun index _ => others index
      rw [List.range_succ_eq_map, List.flatMap_cons, behind, List.append_nil, pages, page,
        Nat.zero_mul, List.drop_zero, List.take_of_length_le ((length 0).trans_le few)]
      exact (sorts 0).perm rows

theorem missesNothing_short_iff {size stride : Nat} (shorter : size < stride)
    (nodup : rows.Nodup) :
    (∀ sorts : Nat → Sorting key, MissesNothing (pages sorts rows size stride) rows stride) ↔
      rows.length ≤ size :=
  ⟨fun complete =>
      length_le_of_missesNothing shorter nodup (.stable key) (complete fun _ => .stable key),
    missesNothing_of_length_le shorter.le⟩

theorem through_eq (rows : List Row) (bound : Key) :
    through key rows bound = before key rows bound + (rows.map key).count bound := by
  induction rows with
  | nil => rfl
  | cons row rest ih =>
      simp only [through, before, List.countP_cons, List.map_cons, List.count_cons] at ih ⊢
      rw [ih]
      rcases lt_trichotomy bound (key row) with less | same | greater
      · simp [less, less.le, less.ne']
        omega
      · simp [same]
        omega
      · simp [not_le.mpr greater, not_lt.mpr greater.le, greater.ne]

theorem groupsWhole_of_length_le {size : Nat} (few : rows.length ≤ size) :
    GroupsWhole key rows size := by
  intro row member index
  cases index with
  | zero => exact .inl (by omega)
  | succ index =>
      have whole : through key rows (key row) ≤ rows.length := List.countP_le_length
      exact .inr ((whole.trans few).trans (Nat.le_mul_of_pos_left size index.succ_pos))

/-- A key of its own for every row leaves no group to cut. -/
theorem groupsWhole_of_unique (unique : (rows.map key).Nodup) (size : Nat) :
    GroupsWhole key rows size := by
  intro row member index
  have alone := List.nodup_iff_count_le_one.mp unique (key row)
  have together : through key rows (key row) =
      before key rows (key row) + (rows.map key).count (key row) := through_eq rows (key row)
  omega

end Filehost.Data.Paging
