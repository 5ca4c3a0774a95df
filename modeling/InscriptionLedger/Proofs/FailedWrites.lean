import InscriptionLedger.Proofs.StoredBlocks

/-!
# Writes that fail

The tables are reached through a connection. Its first statement opens a transaction; what the
statements of a write have done is saved when the write is done. A block that fails at one of its
statements takes back what those before it did. The write of a transaction or of an inscription
takes nothing back: its one statement has done nothing if it fails, but the transaction that was
opened for it stays open, up to the next write. No call that follows notices, and through a
connection the writes are those of the index, done in full or not at all.

## Main definitions

* `Connection`: tables that are saved, and those of the open transaction
* `Connection.write`, `Connection.call`, `Connection.run`: the calls, statement by statement
* `Connection.IsClean`: an open transaction has changed nothing
* `Connection.Alike`: connections that differ only in whether a transaction is open

## Main results

* `Connection.executeAll_eq`: statements in a transaction, one after another
* `Connection.write_of_done`, `Connection.write_of_failed`: what a write does
* `Connection.Alike.call`: calls do not tell apart connections that are alike
* `Connection.IsClean.write`, `Connection.IsClean.index_run`: the writes are those of the index
* `Connection.unnoticed_of_failure`: after a write that fails all is as if it had not been tried
-/

namespace InscriptionLedger

/-- A connection to tables: those that are saved, and those of the open transaction. -/
structure Connection where
  saved : Tables := {}
  pending : Option Tables := none
  isClosed : Bool := false

/-- Whether the statements of a write are taken back if one of them fails. -/
def Write.isTakenBack : Write → Bool
  | block .. => true
  | _ => false

namespace Connection

/-- A call that may change what is stored. -/
inductive Call
  | write (w : Write)
  | close

/-- The tables that are read and written. -/
def current (c : Connection) : Tables := c.pending.getD c.saved

/-- The index that is read. -/
def index (c : Connection) : Index := { tables := c.current, isClosed := c.isClosed }

/-- A statement. A transaction is opened for it if none is open, and stays open if it fails. -/
def execute (c : Connection) (s : Statement) : Connection × Option Failure :=
  match s.run c.current with
  | .ok next => ({ c with pending := some next }, none)
  | .error f => ({ c with pending := some c.current }, some f)

/-- Statements one after another, up to the first that fails. -/
def executeAll (c : Connection) : List Statement → Connection × Option Failure
  | [] => (c, none)
  | s :: rest =>
    match c.execute s with
    | (next, none) => next.executeAll rest
    | failed => failed

/-- The open transaction is saved. -/
def commit (c : Connection) : Connection := { c with saved := c.current, pending := none }

/-- The open transaction is taken back. -/
def rollback (c : Connection) : Connection := { c with pending := none }

/-- The connection is closed, and an open transaction lost. -/
def close (c : Connection) : Connection := { c.rollback with isClosed := true }

/-- A write, and its failure if it is not done. -/
def write (c : Connection) (w : Write) : Connection × Option Failure :=
  match w.statements? with
  | .error f => (c, some f)
  | .ok statements =>
    if c.isClosed then (c, some .closedStore)
    else
      match c.executeAll statements with
      | (after, none) => (after.commit, none)
      | (after, some f) => (if w.isTakenBack then after.rollback else after, some f)

/-- A call, and its failure if it is not done. -/
def call (c : Connection) : Call → Connection × Option Failure
  | .write w => c.write w
  | .close => (c.close, none)

/-- The connection after calls one after another. -/
def run (c : Connection) (calls : List Call) : Connection :=
  calls.foldl (fun c x => (c.call x).1) c

/-- What the calls answer: the failures of those that are not done. -/
def failures (c : Connection) : List Call → List (Option Failure)
  | [] => []
  | x :: rest => (c.call x).2 :: (c.call x).1.failures rest

theorem run_cons (c : Connection) (x : Call) (rest : List Call) :
    c.run (x :: rest) = (c.call x).1.run rest := rfl

/-! ## Statements in a transaction -/

/-- Statements leave the tables that are saved; those of the transaction are what the statements
make of the ones before. -/
theorem executeAll_eq (c : Connection) (statements : List Statement) :
    ∃ pending, c.executeAll statements = ({ c with pending }, (c.current.runAll statements).2) ∧
      pending.getD c.saved = (c.current.runAll statements).1 := by
  induction statements generalizing c with
  | nil => exact ⟨c.pending, rfl, rfl⟩
  | cons s rest ih =>
    unfold executeAll execute Tables.runAll
    cases s.run c.current with
    | ok next => exact ih { c with pending := some next }
    | error f => exact ⟨some c.current, rfl, rfl⟩

/-- A write that is not taken back has one statement, which has done nothing if it fails. -/
theorem runAll_of_isTakenBack_eq_false {w : Write} (hw : w.isTakenBack = false)
    {statements : List Statement} (hs : w.statements? = .ok statements) {t after : Tables}
    {f : Failure} (h : t.runAll statements = (after, some f)) : after = t := by
  have hsingle : ∃ s, statements = [s] := by
    cases w with
    | block _ _ _ => cases hw
    | transaction u => exact ⟨_, (Statement.alone_eq_ok_iff.1 hs).2⟩
    | inscription id fields content location => exact ⟨_, (Statement.alone_eq_ok_iff.1 hs).2⟩
  obtain ⟨s, rfl⟩ := hsingle
  unfold Tables.runAll at h
  cases hrun : s.run t with
  | ok next =>
    rw [hrun] at h
    cases h
  | error g =>
    rw [hrun] at h
    exact (Prod.mk.inj h).1.symm

/-! ## What a write does -/

section

variable {c : Connection} {w : Write} {statements : List Statement} {t : Tables} {f : Failure}

theorem write_of_error (hs : w.statements? = .error f) : c.write w = (c, some f) := by
  rw [write, hs]

variable (hs : w.statements? = .ok statements)

include hs

theorem write_of_closed (hclosed : c.isClosed = true) : c.write w = (c, some .closedStore) := by
  simp only [write, hs, hclosed, if_true]

variable (hopen : c.isClosed = false)

include hopen

theorem write_of_open :
    c.write w =
      match c.executeAll statements with
      | (after, none) => (after.commit, none)
      | (after, some f) => (if w.isTakenBack then after.rollback else after, some f) := by
  simp only [write, hs, hopen, Bool.false_eq_true, if_false]

/-- What the statements did is saved. -/
theorem write_of_done (hrun : c.current.runAll statements = (t, none)) :
    c.write w = ({ c with saved := t, pending := none }, none) := by
  obtain ⟨pending, hexecute, hpending⟩ := c.executeAll_eq statements
  rw [hrun] at hexecute hpending
  rw [write_of_open hs hopen, hexecute]
  simp only [commit, current, hpending]

/-- The tables of the transaction are those that are saved if the statements are taken back, and are
otherwise what they were. -/
theorem write_of_failed (hrun : c.current.runAll statements = (t, some f)) :
    ∃ pending, c.write w = ({ c with pending }, some f) ∧
      pending.getD c.saved = if w.isTakenBack then c.saved else c.current := by
  obtain ⟨pending, hexecute, hpending⟩ := c.executeAll_eq statements
  rw [hrun] at hexecute hpending
  rw [write_of_open hs hopen, hexecute]
  cases hback : w.isTakenBack with
  | true => exact ⟨none, rfl, rfl⟩
  | false =>
    obtain rfl := runAll_of_isTakenBack_eq_false hback hs hrun
    exact ⟨pending, rfl, hpending⟩

end

/-! ## Connections that are alike -/

/-- An open transaction has changed nothing. -/
def IsClean (c : Connection) : Prop := c.current = c.saved

/-- Connections that differ only in whether a transaction is open. -/
structure Alike (c d : Connection) : Prop where
  saved : c.saved = d.saved
  current : c.current = d.current
  isClosed : c.isClosed = d.isClosed

namespace Alike

variable {c d : Connection}

theorem index (h : c.Alike d) : c.index = d.index := by
  rw [Connection.index, Connection.index, h.current, h.isClosed]

theorem write (h : c.Alike d) (w : Write) :
    (c.write w).1.Alike (d.write w).1 ∧ (c.write w).2 = (d.write w).2 := by
  cases hs : w.statements? with
  | error f =>
    rw [write_of_error hs, write_of_error hs]
    exact ⟨h, rfl⟩
  | ok statements =>
    cases hclosed : d.isClosed with
    | true =>
      rw [write_of_closed hs (h.isClosed.trans hclosed), write_of_closed hs hclosed]
      exact ⟨h, rfl⟩
    | false =>
      have hclosed' := h.isClosed.trans hclosed
      rcases hrun : d.current.runAll statements with ⟨t, _ | f⟩
      · rw [write_of_done hs hclosed' (h.current ▸ hrun), write_of_done hs hclosed hrun]
        exact ⟨⟨rfl, rfl, h.isClosed⟩, rfl⟩
      · obtain ⟨pending, hc, hpending⟩ := write_of_failed hs hclosed' (h.current ▸ hrun)
        obtain ⟨pending', hd, hpending'⟩ := write_of_failed hs hclosed hrun
        rw [hc, hd]
        rw [h.saved, h.current, ← hpending', ← h.saved] at hpending
        exact ⟨⟨h.saved, by simpa [Connection.current, h.saved] using hpending, h.isClosed⟩, rfl⟩

/-- A call does the same through connections that are alike, and leaves them alike. -/
theorem call (h : c.Alike d) (x : Call) :
    (c.call x).1.Alike (d.call x).1 ∧ (c.call x).2 = (d.call x).2 := by
  cases x with
  | write w => exact h.write w
  | close => exact ⟨⟨h.saved, h.saved, rfl⟩, rfl⟩

theorem run (h : c.Alike d) (calls : List Call) : (c.run calls).Alike (d.run calls) := by
  induction calls generalizing c d with
  | nil => exact h
  | cons x rest ih => exact ih (h.call x).1

theorem failures (h : c.Alike d) (calls : List Call) : c.failures calls = d.failures calls := by
  induction calls generalizing c d with
  | nil => rfl
  | cons x rest ih =>
    obtain ⟨halike, hfailure⟩ := h.call x
    rw [Connection.failures, Connection.failures, hfailure, ih halike]

end Alike

/-! ## Clean connections -/

/-- Through a clean connection a write is that of the index, done in full or not at all, and leaves
the connection clean. -/
theorem IsClean.write {c : Connection} (hc : c.IsClean) (w : Write) :
    (c.write w).1.IsClean ∧ c.index.write w = ((c.write w).1.index, (c.write w).2) := by
  cases hs : w.statements? with
  | error f =>
    rw [write_of_error hs, Index.write, hs]
    exact ⟨hc, rfl⟩
  | ok statements =>
    cases hclosed : c.isClosed with
    | true =>
      rw [write_of_closed hs hclosed]
      exact ⟨hc, by simp [Index.write, hs, index, hclosed]⟩
    | false =>
      have hindex : c.index.write w =
          ({ c.index with tables := (c.current.atomically statements).1 },
            (c.current.atomically statements).2) := by
        simp [Index.write, hs, index, hclosed]
      rw [hindex, Tables.atomically]
      rcases hrun : c.current.runAll statements with ⟨t, _ | f⟩
      · rw [write_of_done hs hclosed hrun]
        exact ⟨rfl, rfl⟩
      · obtain ⟨pending, hwrite, hpending⟩ := write_of_failed hs hclosed hrun
        -- Whether or not the statements are taken back, what is left is what was saved.
        rw [hc, ite_self] at hpending
        rw [hwrite]
        refine ⟨hpending, ?_⟩
        simp only [index, current, hpending]
        rw [← current, hc]

theorem IsClean.call {c : Connection} (hc : c.IsClean) (x : Call) : (c.call x).1.IsClean := by
  cases x with
  | write w => exact (hc.write w).1
  | close => rfl

theorem IsClean.run {c : Connection} (hc : c.IsClean) (calls : List Call) :
    (c.run calls).IsClean := by
  induction calls generalizing c with
  | nil => exact hc
  | cons x rest ih => exact ih (hc.call x)

/-- Writes through a connection are those of the index. -/
theorem IsClean.index_run {c : Connection} (hc : c.IsClean) (ws : List Write) :
    (c.run (ws.map .write)).index = c.index.run ws := by
  induction ws generalizing c with
  | nil => rfl
  | cons w rest ih =>
    obtain ⟨hclean, hwrite⟩ := hc.write w
    rw [List.map_cons, run_cons, Index.run_cons, hwrite]
    exact ih hclean

/-! ## Writes that fail -/

/-- A write that fails leaves a clean connection alike. -/
theorem alike_of_failure {c after : Connection} (hc : c.IsClean) {w : Write} {f : Failure}
    (h : c.write w = (after, some f)) : after.Alike c := by
  obtain ⟨hclean, hwrite⟩ := hc.write w
  rw [h] at hclean hwrite
  have hindex : after.index = c.index := Index.write_of_failure hwrite
  have hcurrent : after.current = c.current := congrArg Index.tables hindex
  exact ⟨hclean.symm.trans (hcurrent.trans hc), hcurrent, congrArg Index.isClosed hindex⟩

/-- A write that fails after any calls changes nothing that is read, and is not noticed by the calls
that follow, whichever they are: they answer, and leave what is read and what is saved, as if the
write had not been tried. The index that is read is that of the writes that follow. -/
theorem unnoticed_of_failure {calls : List Call} {w : Write} {before after : Connection}
    {f : Failure} (hbefore : before = ({} : Connection).run calls)
    (h : before.write w = (after, some f)) :
    after.index = before.index ∧ before.index.write w = (before.index, some f) ∧
      (∀ later, after.failures later = before.failures later ∧
        (after.run later).index = (before.run later).index ∧
        (after.run later).saved = (before.run later).saved) ∧
      ∀ ws : List Write, (after.run (ws.map .write)).index = before.index.run ws := by
  have hstart : ({} : Connection).IsClean := rfl
  have hclean : before.IsClean := hbefore ▸ hstart.run calls
  have halike := alike_of_failure hclean h
  refine ⟨halike.index, ?_, fun later => ?_, fun ws => ?_⟩
  · rw [(hclean.write w).2, h, halike.index]
  · have hlater := halike.run later
    exact ⟨halike.failures later, hlater.index, hlater.saved⟩
  · rw [(halike.run (ws.map .write)).index, hclean.index_run ws]

/-- An inscription without a number fails and leaves a transaction open. In it a block is begun: it
takes the place of the block of its height, fails at its second transaction, and is taken back. -/
theorem unnoticed_of_failure_block :
    let before := ({} : Connection).run [.write (.ofBlock ⟨"b1", 5, [.bare "a1"]⟩),
      .write (.inscription ⟨.ofText "a1", 0⟩ ⟨none, some 5, some 0, some 0, none⟩ {} none)]
    let w : Write := .ofBlock ⟨"b2", 5, [.bare "a2", ⟨⟨.list []⟩, [], []⟩]⟩
    ∃ after, before.write w = (after, some .unstorable) ∧ before.pending.isSome = true ∧
      after.pending = none ∧
      after.index.block? (.hash "b1") = .ok (some ⟨"b1", 5, [.bare "a1"]⟩) ∧
      after.index.block? (.hash "b2") = .ok none ∧
      ∀ later, after.failures later = before.failures later ∧
        (after.run later).index = (before.run later).index := by
  intro before w
  have hfails : (before.write w).2 = some .unstorable := by
    dsimp only [before, w]
    cbv
  have hwrite : before.write w = ((before.write w).1, some .unstorable) := Prod.ext rfl hfails
  obtain ⟨hindex, -, hlater, -⟩ := unnoticed_of_failure (by rfl) hwrite
  refine ⟨(before.write w).1, hwrite, ?_, ?_, ?_, ?_, fun later => ?_⟩
  · dsimp only [before]
    cbv
  · dsimp only [before, w]
    cbv
  · rw [hindex]
    dsimp only [before]
    cbv
  · rw [hindex]
    dsimp only [before]
    cbv
  · exact ⟨(hlater later).1, (hlater later).2.1⟩

end Connection

end InscriptionLedger
