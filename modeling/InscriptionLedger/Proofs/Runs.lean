import InscriptionLedger.Proofs.Outcome
import InscriptionLedger.Proofs.Rows

/-!
# Runs of writes

A write that is done makes one of three steps on the tables: it stores a block, puts a transaction
without a place, or puts an inscription. A run goes through writes one after another; those that
fail leave the index as it was, so that the tables after a run are those after the steps of its
accepted writes. Whatever holds of empty tables and is kept by each step holds after every run.

## Main definitions

* `Tables.Step`: the steps
* `Index.run`, `Index.accepted`: the index after writes, and those of them that were done
* `Tables.IsSound`: what holds of the tables after every run

## Main results

* `Index.write_eq_none_iff`: the writes that are done, and the index after them
* `Index.run_induction`: what each step keeps holds after a run
* `Index.run_of_split`: what a write brings about and those behind it keep holds after a run
* `Index.isSound_run`: tables after a run are sound
-/

namespace InscriptionLedger

/-! ## Statements that are done -/

/-- A statement whose texts can be written, whose ids can be put into columns, and whose integers
fit into them. -/
structure Statement.IsFit (s : Statement) : Prop where
  writable : s.isWritable = true
  storable : areStorable s.ids = true
  fits : ∀ n ∈ s.ids.flatMap TransactionId.integers ++ s.integers, fitsColumn n = true

theorem requireFit_eq_ok_iff {ns : List Int} {u : Unit} :
    requireFit ns = .ok u ↔ ∀ n ∈ ns, fitsColumn n = true := by
  unfold requireFit
  split
  · next h => simpa using h
  · next h => simpa using h

theorem Statement.alone_eq_ok_iff {s : Statement} {statements : List Statement} :
    s.alone = .ok statements ↔ s.isWritable = true ∧ statements = [s] := by
  rw [alone, Outcome.bind_eq_ok_iff]
  simp only [requireWritable_eq_ok_iff, exists_const, Outcome.pure_eq_ok, Except.ok.injEq,
    eq_comm (b := statements)]

theorem Statement.run_eq_ok_iff {t after : Tables} {s : Statement} :
    s.run t = .ok after ↔ s.IsFit ∧ s.perform t = .ok after := by
  unfold Statement.run
  rw [Outcome.bind_eq_ok_iff]
  split
  · next hstorable =>
    simp only [Outcome.bind_eq_ok_iff, requireWritable_eq_ok_iff, requireFit_eq_ok_iff,
      exists_const]
    constructor
    · exact fun ⟨hwritable, hfits, hperform⟩ => ⟨⟨hwritable, hstorable, hfits⟩, hperform⟩
    · exact fun ⟨hfit, hperform⟩ => ⟨hfit.writable, hfit.fits, hperform⟩
  · next hother =>
    constructor
    · rintro ⟨_, -, hthrow⟩
      cases hthrow
    · exact fun ⟨hfit, _⟩ => absurd hfit.storable hother

namespace Tables

theorem runAll_cons_eq_iff {t after : Tables} {s : Statement} {rest : List Statement} :
    t.runAll (s :: rest) = (after, none) ↔
      ∃ next, s.run t = .ok next ∧ next.runAll rest = (after, none) := by
  rw [runAll]
  cases s.run t with
  | ok next => simp
  | error f => simp

theorem atomically_eq_none_iff {t after : Tables} {statements : List Statement} :
    t.atomically statements = (after, none) ↔ t.runAll statements = (after, none) := by
  unfold atomically
  split
  · next h => rw [h]
  · next h => simp [h]

theorem runAll_atPosition_eq_iff {t after : Tables} {height : Int}
    {placed : List (Transaction × Nat)} :
    t.runAll (placed.map fun (u, position) => .atPosition height u position) = (after, none) ↔
      (∀ p ∈ placed, (Statement.atPosition height p.1 p.2).IsFit) ∧
        after = t.putAll (placed.map fun (u, position) => u.row (some ⟨height, position⟩)) := by
  induction placed generalizing t with
  | nil => simp [runAll, putAll, eq_comm]
  | cons p rest ih =>
    simp only [List.map_cons, runAll_cons_eq_iff, ih, Statement.run_eq_ok_iff, List.forall_mem_cons,
      putAll_cons]
    constructor
    · rintro ⟨next, ⟨hfit, hperform⟩, hrest, rfl⟩
      cases hperform
      exact ⟨⟨hfit, hrest⟩, rfl⟩
    · rintro ⟨⟨hfit, hrest⟩, rfl⟩
      exact ⟨_, ⟨hfit, rfl⟩, hrest, rfl⟩

end Tables

/-! ## Steps -/

/-- The write of a block. -/
def Write.ofBlock (b : Block) : Write := .block (some b.hash) (some b.height) b.transactions

/-- The statements that store a block. -/
def Block.statements (b : Block) : List Statement :=
  .clearHeight b.height :: .putBlock b.height (some b.hash) ::
    b.transactions.zipIdx.map fun (t, position) => .atPosition b.height t position

theorem Block.fitsColumn_height {b : Block} (h : ∀ s ∈ b.statements, s.IsFit) :
    fitsColumn b.height = true := by
  have hclear := (h (.clearHeight b.height) (List.mem_cons_self ..)).fits
  exact hclear b.height (by simp [Statement.integers])

/-- The row of an inscription, if no required column is empty. -/
def InscriptionRow.of? (id : InscriptionId) (fields : EntryFields) (content : Inscription)
    (location : Option SatPoint) : Option InscriptionRow := do
  return ⟨id.text, ⟨.ofText (← id.txid.cell?), id.index⟩, ← fields.entry?, content,
    location.bind SatPoint.stored?⟩

/-- The cells of an id that can be written hold one that can be written. -/
theorem InscriptionRow.isWritable_of_of? {id : InscriptionId} {fields : EntryFields}
    {content : Inscription} {location : Option SatPoint} {row : InscriptionRow}
    (hid : id.isWritable = true) (h : of? id fields content location = some row) :
    row.id.isWritable = true := by
  simp only [of?, Option.bind_eq_bind, Option.bind_eq_some_iff, Option.pure_def,
    Option.some.injEq] at h
  obtain ⟨txid, -, entry, -, rfl⟩ := h
  exact (Bool.and_eq_true_iff.1 hid).2

/-- What a write that is done makes of the tables. -/
inductive Tables.Step (t : Tables) : Write → Tables → Prop
  | block (b : Block) (fit : ∀ s ∈ b.statements, s.IsFit) : t.Step (.ofBlock b) (t.storeBlock b)
  | transaction (u : Transaction) (fit : (Statement.putTransaction u none).IsFit) :
    t.Step (.transaction u) (t.putTransaction (u.row none))
  | inscription {id : InscriptionId} {fields : EntryFields} {content : Inscription}
    {location : Option SatPoint} {row : InscriptionRow}
    (fit : (Statement.putInscription id fields content location).IsFit)
    (complete : InscriptionRow.of? id fields content location = some row) :
    t.Step (.inscription id fields content location) (t.putInscription row)

namespace Tables

variable {t after : Tables}

theorem runAll_statements_eq_iff {b : Block} :
    t.runAll b.statements = (after, none) ↔
      (∀ s ∈ b.statements, s.IsFit) ∧ after = t.storeBlock b := by
  simp only [Block.statements, runAll_cons_eq_iff, runAll_atPosition_eq_iff,
    Statement.run_eq_ok_iff, List.forall_mem_cons, List.forall_mem_map]
  constructor
  · rintro ⟨cleared, ⟨hclear, hcleared⟩, put, ⟨hput, hputted⟩, hrows, rfl⟩
    cases hcleared
    cases hputted
    exact ⟨⟨hclear, hput, hrows⟩, rfl⟩
  · rintro ⟨⟨hclear, hput, hrows⟩, rfl⟩
    exact ⟨_, ⟨hclear, rfl⟩, _, ⟨hput, rfl⟩, hrows, rfl⟩

theorem runAll_singleton_eq_iff {s : Statement} :
    t.runAll [s] = (after, none) ↔ s.IsFit ∧ s.perform t = .ok after := by
  rw [runAll_cons_eq_iff, ← Statement.run_eq_ok_iff]
  constructor
  · rintro ⟨next, hrun, hnext⟩
    cases hnext
    exact hrun
  · exact fun hrun => ⟨after, hrun, rfl⟩

theorem perform_putInscription_eq_iff {id : InscriptionId} {fields : EntryFields}
    {content : Inscription} {location : Option SatPoint} :
    (Statement.putInscription id fields content location).perform t = .ok after ↔
      ∃ row, InscriptionRow.of? id fields content location = some row ∧
        after = t.putInscription row := by
  cases htxid : id.txid.cell? with
  | none => simp [Statement.perform, InscriptionRow.of?, htxid]
  | some txid =>
    cases hentry : fields.entry? with
    | none => simp [Statement.perform, InscriptionRow.of?, htxid, hentry]
    | some entry => simp [Statement.perform, InscriptionRow.of?, htxid, hentry, eq_comm]

/-- A statement that is alone is run if its texts can be written. -/
theorem runAll_alone_iff {s : Statement} :
    (∃ statements, s.alone = .ok statements ∧ t.runAll statements = (after, none)) ↔
      s.IsFit ∧ s.perform t = .ok after := by
  rw [← runAll_singleton_eq_iff]
  constructor
  · rintro ⟨statements, halone, hrun⟩
    rwa [(Statement.alone_eq_ok_iff.1 halone).2] at hrun
  · intro hrun
    have hwritable := (runAll_singleton_eq_iff.1 hrun).1.writable
    exact ⟨[s], Statement.alone_eq_ok_iff.2 ⟨hwritable, rfl⟩, hrun⟩

/-- The statements of a write are all done exactly when it makes a step. -/
theorem step_iff {w : Write} :
    t.Step w after ↔
      ∃ statements, w.statements? = .ok statements ∧ t.runAll statements = (after, none) := by
  constructor
  · intro hstep
    cases hstep with
    | block b fit => exact ⟨b.statements, rfl, runAll_statements_eq_iff.2 ⟨fit, rfl⟩⟩
    | transaction u fit => exact runAll_alone_iff.2 ⟨fit, rfl⟩
    | inscription fit complete =>
      exact runAll_alone_iff.2 ⟨fit, perform_putInscription_eq_iff.2 ⟨_, complete, rfl⟩⟩
  · intro hrun
    cases w with
    | block hash height transactions =>
      obtain ⟨statements, hstatements, hrun⟩ := hrun
      cases height with
      | none => cases hstatements
      | some height =>
        cases hstatements
        cases hash with
        | none =>
          obtain ⟨_, -, hput⟩ := runAll_cons_eq_iff.1 hrun
          obtain ⟨_, hput, -⟩ := runAll_cons_eq_iff.1 hput
          cases (Statement.run_eq_ok_iff.1 hput).2
        | some hash =>
          obtain ⟨fit, rfl⟩ := runAll_statements_eq_iff (b := ⟨hash, height, transactions⟩).1 hrun
          exact .block ⟨hash, height, transactions⟩ fit
    | transaction u =>
      obtain ⟨fit, hperform⟩ := runAll_alone_iff.1 hrun
      cases hperform
      exact .transaction u fit
    | inscription id fields content location =>
      obtain ⟨fit, hperform⟩ := runAll_alone_iff.1 hrun
      obtain ⟨row, complete, rfl⟩ := perform_putInscription_eq_iff.1 hperform
      exact .inscription fit complete

end Tables

/-! ## Runs -/

namespace Index

/-- A write is done exactly when the index is open and the write makes a step on the tables. -/
theorem write_eq_none_iff {index after : Index} {w : Write} :
    index.write w = (after, none) ↔
      index.isClosed = false ∧ ∃ t, index.tables.Step w t ∧ after = { index with tables := t } := by
  unfold write
  cases hs : w.statements? with
  | error f => simp [Tables.step_iff, hs]
  | ok statements =>
    cases hclosed : index.isClosed with
    | true => simp
    | false =>
      simp only [Tables.step_iff, hs, Except.ok.injEq, exists_eq_left', Bool.false_eq_true,
        if_false, true_and, Prod.mk.injEq]
      constructor
      · rintro ⟨rfl, hnone⟩
        refine ⟨_, Tables.atomically_eq_none_iff.1 (Prod.ext rfl hnone), rfl⟩
      · rintro ⟨t, hrun, rfl⟩
        rw [Tables.atomically_eq_none_iff.2 hrun]
        exact ⟨rfl, rfl⟩

/-- The index after writes one after another; those that fail leave it as it was. -/
def run (index : Index) (ws : List Write) : Index :=
  ws.foldl (fun index w => (index.write w).1) index

/-- The writes of a run that are done. -/
def accepted (index : Index) : List Write → List Write
  | [] => []
  | w :: rest =>
    match index.write w with
    | (after, none) => w :: after.accepted rest
    | (after, some _) => after.accepted rest

@[simp] theorem run_nil (index : Index) : index.run [] = index := rfl

@[simp] theorem run_cons (index : Index) (w : Write) (rest : List Write) :
    index.run (w :: rest) = (index.write w).1.run rest := rfl

theorem run_append (index : Index) (first second : List Write) :
    index.run (first ++ second) = (index.run first).run second := List.foldl_append

theorem accepted_sublist (index : Index) (ws : List Write) : (index.accepted ws).Sublist ws := by
  induction ws generalizing index with
  | nil => exact .slnil
  | cons w rest ih =>
    rw [accepted]
    split
    · exact (ih _).cons_cons w
    · exact (ih _).cons w

/-- What holds at first, and is kept by the step of each accepted write, holds after a run. -/
theorem run_induction {P : List Write → Tables → Prop} {index : Index} {ws : List Write}
    (start : P [] index.tables)
    (step : ∀ done t w after, w ∈ ws → P done t → t.Step w after → P (done ++ [w]) after) :
    P (index.accepted ws) (index.run ws).tables := by
  -- The induction is on the writes that are left, behind those that were done.
  suffices h : ∀ (rest : List Write) (index : Index) (done : List Write), rest ⊆ ws →
      P done index.tables → P (done ++ index.accepted rest) (index.run rest).tables from
    h ws index [] (List.Subset.refl ws) start
  intro rest
  induction rest with
  | nil =>
    intro index done _ hdone
    simpa [accepted] using hdone
  | cons w rest ih =>
    intro index done hsub hdone
    obtain ⟨hw, hrest⟩ := List.cons_subset.1 hsub
    rw [accepted, run_cons]
    rcases hwrite : index.write w with ⟨after, _ | f⟩
    · obtain ⟨-, t, hstep, rfl⟩ := write_eq_none_iff.1 hwrite
      have := ih { index with tables := t } (done ++ [w]) hrest (step _ _ _ _ hw hdone hstep)
      simpa using this
    · obtain rfl := write_of_failure hwrite
      exact ih _ done hrest hdone

/-- What an accepted write brings about, and the accepted writes behind it keep, holds after a
run. -/
theorem run_of_split {Q : Tables → Prop} {index : Index} {ws before behind : List Write} {w : Write}
    (hlog : index.accepted ws = before ++ w :: behind)
    (brings : ∀ (t after : Tables), t.Step w after → Q after)
    (keeps : ∀ v ∈ behind, ∀ (t after : Tables), Q t → t.Step v after → Q after) :
    Q (index.run ws).tables := by
  suffices h : ∀ before behind, index.accepted ws = before ++ w :: behind →
      (∀ v ∈ behind, ∀ (t after : Tables), Q t → t.Step v after → Q after) →
        Q (index.run ws).tables from h before behind hlog keeps
  clear hlog keeps
  refine run_induction (P := fun done t => ∀ before behind, done = before ++ w :: behind →
    (∀ v ∈ behind, ∀ (t after : Tables), Q t → t.Step v after → Q after) → Q t) ?_ ?_
  · intro before behind hnil
    simp at hnil
  · intro done t v after _ hdone hstep before behind hlog keeps
    -- The last write is the one that brings it about, or one behind it.
    rcases List.eq_nil_or_concat behind with rfl | ⟨rest, u, rfl⟩
    · obtain ⟨-, hvw⟩ := List.append_inj' hlog rfl
      obtain rfl := List.singleton_inj.1 hvw
      exact brings t after hstep
    · rw [List.concat_eq_append, ← List.cons_append, ← List.append_assoc] at hlog
      obtain ⟨hdone', hvu⟩ := List.append_inj' hlog rfl
      obtain rfl := List.singleton_inj.1 hvu
      obtain ⟨hrest, hlast⟩ := List.forall_mem_append.1 (List.concat_eq_append ▸ keeps)
      exact hlast v (List.mem_singleton_self v) t after (hdone before rest hdone' hrest) hstep

theorem run_eq (index : Index) (ws : List Write) :
    index.run ws = { index with tables := (index.run ws).tables } := by
  induction ws generalizing index with
  | nil => rfl
  | cons w rest ih =>
    rw [run_cons]
    rcases hwrite : index.write w with ⟨after, _ | f⟩
    · obtain ⟨-, t, -, rfl⟩ := write_eq_none_iff.1 hwrite
      exact ih { index with tables := t }
    · obtain rfl := write_of_failure hwrite
      exact ih _

@[simp] theorem isClosed_run (index : Index) (ws : List Write) :
    (index.run ws).isClosed = index.isClosed := by
  rw [run_eq]

@[simp] theorem unreadableNumbers_run (index : Index) (ws : List Write) :
    (index.run ws).unreadableNumbers = index.unreadableNumbers := by
  rw [run_eq]

@[simp] theorem unreadableTransactions_run (index : Index) (ws : List Write) :
    (index.run ws).unreadableTransactions = index.unreadableTransactions := by
  rw [run_eq]

end Index

/-! ## Sound tables -/

/-- Tables whose unique columns are unique, whose blocks have heights that fit, whose heights hold
transactions in order, whose transactions are stored under their own ids, and whose inscriptions
have ids that can be written. -/
structure Tables.IsSound (t : Tables) : Prop where
  blocks : t.blocks.Pairwise fun r s => r.clashes s = false
  heights : ∀ row ∈ t.blocks, fitsColumn row.height = true
  transactions : t.transactions.Pairwise TransactionRow.IsApart
  inscriptions : t.inscriptions.Pairwise fun r s => r.clashes s = false
  ordered : ∀ height, (t.rowsAt height).Pairwise fun r s => r.position < s.position
  rows : ∀ r ∈ t.transactions, ∃ (u : Transaction) (place : Option Place), r = u.row place
  writable : ∀ r ∈ t.inscriptions, r.id.isWritable = true

namespace Tables.IsSound

theorem pairwise_put {α : Type} {R : α → α → Prop} {rows : List α} {row : α} {keeps : α → Bool}
    (h : rows.Pairwise R) (hrow : ∀ r, keeps r = true → R r row) :
    (rows.filter keeps ++ [row]).Pairwise R := by
  rw [List.pairwise_append]
  refine ⟨h.filter keeps, List.pairwise_singleton R row, ?_⟩
  intro r hr s hs
  obtain rfl := List.mem_singleton.1 hs
  exact hrow r (List.mem_filter.1 hr).2

theorem empty : ({} : Tables).IsSound where
  blocks := .nil
  heights _ hrow := by cases hrow
  transactions := .nil
  inscriptions := .nil
  ordered _ := .nil
  rows _ hr := by cases hr
  writable _ hr := by cases hr

variable {t after : Tables}

theorem storeBlock (h : t.IsSound) {b : Block} (hfit : fitsColumn b.height = true) :
    (t.storeBlock b).IsSound where
  blocks := by
    rw [blocks_storeBlock]
    exact pairwise_put h.blocks fun r hr => by simpa using hr
  heights row hrow := by
    rw [blocks_storeBlock, List.mem_append] at hrow
    rcases hrow with hrow | hrow
    · exact h.heights row (List.mem_filter.1 hrow).1
    · obtain rfl := List.mem_singleton.1 hrow
      exact hfit
  transactions := by
    rw [transactions_storeBlock, List.pairwise_append]
    refine ⟨h.transactions.filter _, List.pairwise_pwFilter _, ?_⟩
    intro r hr s hs
    have hkept := (List.mem_filter.1 hr).2
    simp only [Bool.and_eq_true, List.all_eq_true] at hkept
    simpa [TransactionRow.IsApart] using hkept.1 s (List.pwFilter_subset _ hs)
  inscriptions := by
    rw [inscriptions_storeBlock]
    exact h.inscriptions
  ordered height := by
    -- At its height the block leaves its own rows, at every other what was there.
    by_cases heq : height = b.height
    · rw [heq, rowsAt_storeBlock_self]
      exact b.pairwise_position_rows.sublist (List.pwFilter_sublist _)
    · rw [rowsAt_storeBlock_of_ne heq]
      exact (h.ordered height).filter _
  rows r hr := by
    rw [transactions_storeBlock, List.mem_append] at hr
    rcases hr with hr | hr
    · exact h.rows r (List.mem_filter.1 hr).1
    · obtain ⟨u, -, position, rfl⟩ := b.mem_rows (List.pwFilter_subset _ hr)
      exact ⟨u, _, rfl⟩
  writable := by
    rw [inscriptions_storeBlock]
    exact h.writable

theorem putTransaction_row (h : t.IsSound) (u : Transaction) :
    (t.putTransaction (u.row none)).IsSound where
  blocks := h.blocks
  heights := h.heights
  transactions := pairwise_put h.transactions fun r hr => by
    simpa [TransactionRow.IsApart] using hr
  inscriptions := h.inscriptions
  ordered height := by
    rw [rowsAt_putTransaction_row]
    exact (h.ordered height).filter _
  rows r hr := by
    rcases mem_putTransaction.1 hr with ⟨hr, -⟩ | rfl
    · exact h.rows r hr
    · exact ⟨u, none, rfl⟩
  writable := h.writable

theorem putInscription (h : t.IsSound) {row : InscriptionRow} (hrow : row.id.isWritable = true) :
    (t.putInscription row).IsSound where
  blocks := h.blocks
  heights := h.heights
  transactions := h.transactions
  inscriptions := pairwise_put h.inscriptions fun r hr => by simpa using hr
  ordered := h.ordered
  rows := h.rows
  writable r hr := by
    rcases mem_putInscription.1 hr with ⟨hr, -⟩ | rfl
    · exact h.writable r hr
    · exact hrow

theorem step (h : t.IsSound) {w : Write} (hstep : t.Step w after) : after.IsSound := by
  cases hstep with
  | block b fit => exact h.storeBlock (b.fitsColumn_height fit)
  | transaction u _ => exact h.putTransaction_row u
  | inscription fit complete =>
    exact h.putInscription (InscriptionRow.isWritable_of_of? fit.writable complete)

end Tables.IsSound

namespace Index

theorem isSound_run_of_isSound {index : Index} (h : index.tables.IsSound) (ws : List Write) :
    (index.run ws).tables.IsSound :=
  run_induction (P := fun _ t => t.IsSound) h fun _ _ _ _ _ hdone hstep => hdone.step hstep

/-- Tables after a run are sound. -/
theorem isSound_run (ws : List Write) : (({} : Index).run ws).tables.IsSound :=
  isSound_run_of_isSound .empty ws

end Index

end InscriptionLedger
