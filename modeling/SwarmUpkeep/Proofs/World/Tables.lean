import SwarmUpkeep.Proofs.Storage.Holdings
import SwarmUpkeep.Proofs.World.Clock

/-!
# The tables of a world

A world keeps the rows of a table in the order of their places. As long as no fault hits them, its
tables answer by what they hold and keep that order.
-/

namespace SwarmUpkeep.World

variable {w : World} {row : Row} {rows : List Row} {partition key : String}

/-- The place of one row comes before the place of another. -/
def Precedes (row row' : Row) : Prop :=
  row.partition < row'.partition ∨ row.partition = row'.partition ∧ row.key < row'.key

theorem Precedes.trans {row' row'' : Row} (h : Precedes row row') (h' : Precedes row' row'') :
    Precedes row row'' := by
  rcases h with hless | ⟨hsame, hkey⟩
  · rcases h' with hless' | ⟨hsame', _⟩
    · exact .inl (String.lt_trans hless hless')
    · exact .inl (hsame' ▸ hless)
  · rcases h' with hless' | ⟨hsame', hkey'⟩
    · exact .inl (hsame ▸ hless')
    · exact .inr ⟨hsame.trans hsame', String.lt_trans hkey hkey'⟩

theorem isAt_iff : isAt partition key row = true ↔ row.partition = partition ∧ row.key = key := by
  simp [isAt]

theorem Precedes.not_isAt {row' : Row} (h : Precedes row row') :
    isAt row'.partition row'.key row = false := by
  rw [Bool.eq_false_iff, ne_eq, isAt_iff]
  rintro ⟨hpartition, hkey⟩
  rcases h with hless | ⟨_, hless⟩
  · exact String.lt_irrefl _ (hpartition ▸ hless)
  · exact String.lt_irrefl _ (hkey ▸ hless)

/-- Of two rows at different places one precedes the other. -/
theorem Precedes.of_not {row' : Row} (hplace : ¬isAt row.partition row.key row' = true)
    (h : ¬Precedes row row') : Precedes row' row := by
  rcases Std.lt_trichotomy row.partition row'.partition with hless | hsame | hmore
  · exact absurd (.inl hless) h
  · rcases Std.lt_trichotomy row.key row'.key with hless | hkey | hmore
    · exact absurd (.inr ⟨hsame, hless⟩) h
    · exact absurd (isAt_iff.mpr ⟨hsame.symm, hkey.symm⟩) hplace
    · exact .inr ⟨hsame.symm, hmore⟩
  · exact .inl hmore

theorem isAt_eq_of_isAt {row' : Row} (h : isAt row.partition row.key row' = true)
    (partition key : String) : isAt partition key row' = isAt partition key row := by
  obtain ⟨hpartition, hkey⟩ := isAt_iff.mp h
  unfold isAt
  rw [hpartition, hkey]

/-! ## Rows in order -/

theorem mem_putRow {other : Row} (h : other ∈ putRow row rows) : other = row ∨ other ∈ rows := by
  induction rows with
  | nil => exact .inl (List.mem_singleton.mp h)
  | cons old rows ih =>
      unfold putRow at h
      split at h
      · exact (List.mem_cons.mp h).imp_right (.tail _)
      · split at h
        · exact List.mem_cons.mp h
        · rcases List.mem_cons.mp h with rfl | h
          · exact .inr (.head _)
          · exact (ih h).imp_right (.tail _)

theorem putRow_pairwise (h : rows.Pairwise Precedes) : (putRow row rows).Pairwise Precedes := by
  induction rows with
  | nil => exact List.pairwise_singleton _ _
  | cons old rows ih =>
      obtain ⟨hold, hrows⟩ := List.pairwise_cons.mp h
      unfold putRow
      split
      next hsame =>
        obtain ⟨hpartition, hkey⟩ := isAt_iff.mp hsame
        refine List.pairwise_cons.mpr ⟨fun other hother => ?_, hrows⟩
        have hother := hold other hother
        unfold Precedes at hother ⊢
        rwa [← hpartition, ← hkey]
      next hplace =>
        split
        next hbefore =>
          refine List.pairwise_cons.mpr ⟨fun other hother => ?_, h⟩
          rcases List.mem_cons.mp hother with rfl | hother
          · exact hbefore
          · exact Precedes.trans hbefore (hold other hother)
        next hbehind =>
          refine List.pairwise_cons.mpr ⟨fun other hother => ?_, ih hrows⟩
          rcases mem_putRow hother with rfl | hother
          · exact Precedes.of_not hplace hbehind
          · exact hold other hother

/-- The row that is put is found at its place, and every other place stays as it was. -/
theorem find?_putRow (partition key : String) :
    (putRow row rows).find? (isAt partition key) =
      if isAt partition key row then some row else rows.find? (isAt partition key) := by
  induction rows with
  | nil =>
      rw [putRow, List.find?_cons]
      cases isAt partition key row <;> rfl
  | cons old rows ih =>
      unfold putRow
      split
      next hsame =>
        rw [List.find?_cons, List.find?_cons, isAt_eq_of_isAt hsame]
        cases isAt partition key row <;> rfl
      next hplace =>
        split
        · rw [List.find?_cons]
          cases isAt partition key row <;> rfl
        · rw [List.find?_cons, List.find?_cons, ih]
          cases hold : isAt partition key old with
          | false => rfl
          | true =>
              have hrow : ¬isAt partition key row = true := by
                intro hrow
                obtain ⟨rfl, rfl⟩ := isAt_iff.mp hrow
                exact hplace hold
              exact (if_neg hrow).symm

/-- Where neither the row that is put nor any at its place counts, all stays as it was. -/
theorem filter_putRow {counts : Row → Bool}
    (hplace : ∀ r, isAt row.partition row.key r = true → counts r = false) :
    (putRow row rows).filter counts = rows.filter counts := by
  have hrow : counts row = false := hplace row (isAt_iff.mpr ⟨rfl, rfl⟩)
  induction rows with
  | nil => simp [putRow, hrow]
  | cons old rows ih =>
      unfold putRow
      split
      next hsame => simp [hrow, hplace old hsame]
      next =>
        split
        · simp [hrow]
        · simp [List.filter_cons, ih]

/-- The row at a place is gone, and every other place stays as it was. -/
theorem find?_filter_not_isAt (partition key partition' key' : String) :
    (rows.filter fun row => !isAt partition key row).find? (isAt partition' key') =
      if partition' = partition ∧ key' = key then none else rows.find? (isAt partition' key') := by
  rw [List.find?_filter]
  split
  next hplace =>
    obtain ⟨rfl, rfl⟩ := hplace
    rw [List.find?_eq_none]
    simp
  next hplace =>
    congr 1
    funext row
    cases hrow : isAt partition' key' row with
    | false => simp
    | true =>
        have hother : isAt partition key row = false := by
          rw [Bool.eq_false_iff]
          intro hsame
          obtain ⟨rfl, rfl⟩ := isAt_iff.mp hrow
          obtain ⟨hpartition, hkey⟩ := isAt_iff.mp hsame
          exact hplace ⟨hpartition, hkey⟩
        simp [hother]

/-- In order, every row is the one that is found at its place. -/
theorem find?_of_mem (h : rows.Pairwise Precedes) (hrow : row ∈ rows) :
    rows.find? (isAt row.partition row.key) = some row := by
  induction rows with
  | nil => cases hrow
  | cons old rows ih =>
      obtain ⟨hold, hrows⟩ := List.pairwise_cons.mp h
      rcases List.mem_cons.mp hrow with rfl | hrow
      · exact List.find?_cons_of_pos (isAt_iff.mpr ⟨rfl, rfl⟩)
      · have hother : ¬isAt row.partition row.key old = true := by
          rw [(hold row hrow).not_isAt]
          decide
        rw [List.find?_cons_of_neg hother]
        exact ih hrows hrow

/-- The rows of a partition are listed by their keys. -/
theorem filter_lists (h : rows.Pairwise Precedes) (partition : String) :
    Shelf.Lists (fun partition key => rows.find? (isAt partition key)) partition
      (rows.filter fun row => row.partition == partition) where
  ascending := by
    refine List.Pairwise.imp_of_mem ?_ (h.filter _)
    intro r r' hr hr' hprecedes
    have hpartition := beq_iff_eq.mp (List.mem_filter.mp hr).2
    have hpartition' := beq_iff_eq.mp (List.mem_filter.mp hr').2
    rcases hprecedes with hless | ⟨_, hless⟩
    · rw [hpartition, hpartition'] at hless
      exact absurd hless (String.lt_irrefl _)
    · exact hless
  found key row := by
    rw [List.mem_filter, beq_iff_eq]
    constructor
    · intro hfind
      obtain ⟨hpartition, hkey⟩ := isAt_iff.mp (List.find?_some hfind)
      exact ⟨⟨List.mem_of_find?_eq_some hfind, hpartition⟩, hkey⟩
    · rintro ⟨⟨hrow, rfl⟩, rfl⟩
      exact find?_of_mem h hrow

/-! ## Service -/

/-- The row at each place of a world's tables. -/
def held (w : World) : Holdings :=
  fun table partition key => (w.rows table).find? (isAt partition key)

/-- The rows of every table are in order. -/
def IsFiled (w : World) : Prop :=
  ∀ table, (w.rows table).Pairwise Precedes

theorem rows_set (w : World) (table other : String) (rows : List Row) :
    ({ w with tables := Keyed.set w.tables table rows } : World).rows other =
      if other = table then rows else w.rows other := by
  unfold World.rows
  split
  next hother => rw [hother, Keyed.find?_set_self, Option.getD_some]
  next hother => rw [Keyed.find?_set_of_ne _ _ hother]

/-- Where the rows of one table change at one place, so does what the tables hold. -/
theorem setRows_served (h : w.IsFiled) {table : String} {changed : Option Row}
    (hrows : rows.Pairwise Precedes)
    (hfind : ∀ partition' key', rows.find? (isAt partition' key') =
      if partition' = partition ∧ key' = key then changed
      else (w.rows table).find? (isAt partition' key')) :
    ({ w with tables := Keyed.set w.tables table rows } : World).held =
        w.held.set table partition key changed ∧
      ({ w with tables := Keyed.set w.tables table rows } : World).IsFiled := by
  constructor
  · funext other partition' key'
    unfold held Holdings.set Shelf.set
    rw [rows_set]
    by_cases hother : other = table
    · simp only [hother, if_true, hfind]
    · simp only [hother, if_false]
  · intro other
    rw [rows_set]
    split
    · exact hrows
    · exact h other

theorem isSome_held {table : String} :
    (w.held table partition key).isSome = (w.rows table).any (isAt partition key) := by
  unfold held
  rw [Bool.eq_iff_iff, List.find?_isSome, List.any_eq_true]

/-- Tables in order answer by what they hold and stay in order. -/
theorem table_serves (h : w.IsFiled) (call : TableCall) :
    w.held.Serves call (w.table call).1 (w.table call).2.held ∧ (w.table call).2.IsFiled := by
  cases call with
  | get table partition key => exact ⟨⟨rfl, rfl⟩, h⟩
  | upsert table row =>
      have hfind : ∀ partition' key', (putRow row (w.rows table)).find? (isAt partition' key') =
          if partition' = row.partition ∧ key' = row.key then some row
          else (w.rows table).find? (isAt partition' key') := by
        intro partition' key'
        rw [find?_putRow]
        exact if_congr (isAt_iff.trans (and_congr eq_comm eq_comm)) rfl rfl
      obtain ⟨hheld, hfiled⟩ := setRows_served h (putRow_pairwise (h table)) hfind
      exact ⟨⟨rfl, hheld⟩, hfiled⟩
  | delete table partition key =>
      unfold Holdings.Serves World.table
      dsimp only
      rw [isSome_held]
      split
      next hany =>
        obtain ⟨hheld, hfiled⟩ := setRows_served h ((h table).filter _)
          (find?_filter_not_isAt partition key)
        exact ⟨⟨hheld, rfl⟩, hfiled⟩
      next hany =>
        have hnone : w.held table partition key = none := by
          rw [← Option.not_isSome_iff_eq_none, isSome_held]
          exact hany
        exact ⟨⟨(Holdings.set_of_eq hnone).symm, _, rfl⟩, h⟩
  | query table partition =>
      exact ⟨⟨rfl, _, rfl, filter_lists (h table) partition⟩, h⟩

/-! ## Runs -/

/-- A world without faults whose tables are in order. -/
structure IsServing (w : World) : Prop where
  faults : w.faults = []
  filed : w.IsFiled

theorem respond_table (h : w.faults = []) (call : TableCall) :
    w.respond (.table call) = (w.record call.text).table call := by
  have hreceive : w.receive call.text = (none, w.record call.text) := by
    unfold receive
    rw [h]
    simp only [strike]
    rw [← h]
  rw [respond, hreceive]

/-- A question to a table leaves all but the tables. -/
theorem table_eq (w : World) (call : TableCall) :
    (w.table call).2 = { w with tables := (w.table call).2.tables } := by
  cases call with
  | delete table partition key =>
      unfold World.table
      dsimp only
      split <;> rfl
  | get table partition key => rfl
  | upsert table row => rfl
  | query table partition => rfl

/-- A world without faults serves its tables for as long as its clock tells instants that can be
written. -/
theorem serving_of_clock {α : Type} {p : Program Surroundings α} (hasks : p.Asks Call.IsFiled)
    (h : w.IsServing) (hclock : 0 ≤ w.clock.sinceEpoch)
    (hlimit : w.clock.sinceEpoch + 1000 * ((p.visits respond w).length : Int) < Instant.limit) :
    Program.Obeys (Holdings.serving respond held) respond (p.visits respond w) := by
  refine obeys_of_clock hasks ?_ h hclock hlimit
  intro w c hc h
  cases c with
  | table call =>
      obtain ⟨hserves, hfiled⟩ := table_serves (w := w.record call.text) h.filed call
      have hrest := table_eq (w.record call.text) call
      have hfaults := (congrArg World.faults hrest).trans h.faults
      have hclock := congrArg World.clock hrest
      constructor
      all_goals rw [respond_table h.faults]
      · exact fun _ => hserves
      · exact ⟨hfaults, hfiled⟩
      · exact fun _ => hclock
  | now => exact ⟨fun hwritten => ⟨rfl, hwritten, rfl⟩, ⟨h.faults, h.filed⟩, fun h => absurd rfl h⟩
  | _ => exact hc.elim

end SwarmUpkeep.World
