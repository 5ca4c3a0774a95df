import InscriptionLedger.Proofs.Snapshots
import InscriptionLedger.Proofs.StoredForm

/-!
# Published snapshots

A snapshot stays published until an update brings another one. What an update brings hangs on the
node's answers to its calls alone; only its generation comes from the snapshot that was published,
and counts the updates that have brought one. The node may change from call to call, and each
update may face another one.

## Main definitions

* `Snapshot.AnswersAlike`: nodes that give the same answers to the calls of an update
* `Snapshot.publishAll`, `Snapshot.brought`: the snapshot that is published after updates, and those
  that they have brought

## Main results

* `Snapshot.updateInTurns_eq_map`: an update brings the same whatever was published
* `Snapshot.publishAll_history`: what is published after updates, and after one more
-/

namespace InscriptionLedger

namespace Snapshot

/-! ## What an update hangs on -/

/-- A snapshot under another generation. -/
def withGeneration (snapshot : Snapshot) (generation : Nat) : Snapshot :=
  { snapshot with generation }

/-- Nodes that give the same answers to the calls of an update: to the one that lists the pending
transactions, and to those for each transaction that is listed. -/
structure AnswersAlike (turns turns' : Nat → Node) : Prop where
  pending : turns 0 Node.pendingCall = turns' 0 Node.pendingCall
  transaction : ∀ txids, listPending (turns 0) = .ok txids → ∀ (k : Nat) (txid : String),
    txids[k]? = some txid →
      turns (k + 1) (Node.transactionCall txid 1) = turns' (k + 1) (Node.transactionCall txid 1)

theorem listPending_congr {node node' : Node}
    (h : node Node.pendingCall = node' Node.pendingCall) :
    listPending node = listPending node' := by
  rw [listPending, listPending, Node.pending, Node.pending, Node.call, Node.call, h]

/-- An update hangs on the answers to its calls. -/
theorem AnswersAlike.updateInTurns_eq {turns turns' : Nat → Node} (h : AnswersAlike turns turns')
    (snapshot : Snapshot) : snapshot.updateInTurns turns' = snapshot.updateInTurns turns := by
  unfold updateInTurns
  rw [← listPending_congr h.pending]
  cases hlisted : listPending (turns 0) with
  | error f => rfl
  | ok txids =>
    have hanswers : answersInTurns turns' txids = answersInTurns turns txids := by
      refine List.map_congr_left fun x hx => congrArg (Prod.mk x.1) ?_
      have hsame := h.transaction txids hlisted x.2 x.1 (List.mem_zipIdx_iff_getElem?.1 hx)
      rw [Node.transaction, Node.transaction, Node.call, Node.call, hsame]
    rw [Outcome.ok_bind, Outcome.ok_bind, hanswers]

theorem ofTransactions?_eq_map (generation generation' : Nat)
    (given : List (String × Transaction)) :
    ofTransactions? generation' given =
      (ofTransactions? generation given).map fun s => s.withGeneration generation' := by
  unfold ofTransactions?
  dsimp only
  split
  · rfl
  · rfl

/-- An update brings the same whatever was published, under the generation that comes next. -/
theorem updateInTurns_eq_map (snapshot other : Snapshot) (turns : Nat → Node) :
    other.updateInTurns turns =
      (snapshot.updateInTurns turns).map fun s => s.withGeneration (other.generation + 1) := by
  unfold updateInTurns
  simp only [Outcome.map_bind, ← ofTransactions?_eq_map]

theorem generation_of_updateInTurns {snapshot next : Snapshot} {turns : Nat → Node}
    (h : snapshot.updateInTurns turns = .ok next) : next.generation = snapshot.generation + 1 := by
  rw [updateInTurns_eq_map snapshot snapshot] at h
  obtain ⟨s, -, rfl⟩ := Outcome.map_eq_ok_iff.1 h
  rfl

/-! ## Updates one after another -/

/-- The snapshot that is published after updates one after another. -/
def publishAll (published : Snapshot) (history : List (Nat → Node)) : Snapshot :=
  history.foldl (fun published turns => (published.publish turns).1) published

/-- The snapshots that updates bring one after another. -/
def brought (published : Snapshot) : List (Nat → Node) → List Snapshot
  | [] => []
  | turns :: rest =>
    match published.updateInTurns turns with
    | .ok next => next :: next.brought rest
    | .error _ => published.brought rest

section

variable {published : Snapshot} {turns : Nat → Node}

theorem publish_of_ok {next : Snapshot} (h : published.updateInTurns turns = .ok next) :
    published.publish turns = (next, none) := by
  rw [publish, h]

theorem publish_of_error {f : Failure} (h : published.updateInTurns turns = .error f) :
    published.publish turns = (published, some f) := by
  rw [publish, h]

theorem publishAll_concat (published : Snapshot) (history : List (Nat → Node))
    (turns : Nat → Node) :
    published.publishAll (history ++ [turns]) =
      ((published.publishAll history).publish turns).1 := List.foldl_concat ..

theorem brought_concat (published : Snapshot) (history : List (Nat → Node)) (turns : Nat → Node) :
    published.brought (history ++ [turns]) = published.brought history ++
      ((published.publishAll history).updateInTurns turns).toOption.toList := by
  -- From the front, where both recursions run; what was published before is any snapshot.
  induction history generalizing published with
  | nil =>
    rw [List.nil_append, brought, brought, brought, publishAll, List.foldl_nil]
    cases published.updateInTurns turns <;> rfl
  | cons first rest ih =>
    rw [List.cons_append, brought, brought, publishAll, List.foldl_cons]
    cases h : published.updateInTurns first with
    | ok next =>
      rw [publish_of_ok h]
      exact congrArg (next :: ·) (ih next)
    | error f =>
      rw [publish_of_error h]
      exact ih published

theorem brought_concat_of_ok {history : List (Nat → Node)} {next : Snapshot}
    (h : (published.publishAll history).updateInTurns turns = .ok next) :
    published.brought (history ++ [turns]) = published.brought history ++ [next] := by
  rw [brought_concat, h]
  rfl

theorem brought_concat_of_error {history : List (Nat → Node)} {f : Failure}
    (h : (published.publishAll history).updateInTurns turns = .error f) :
    published.brought (history ++ [turns]) = published.brought history := by
  rw [brought_concat, h]
  exact List.append_nil _

/-- What is published after updates is the last snapshot that they have brought, and its generation
counts them. -/
theorem publishAll_eq_getLastD (published : Snapshot) (history : List (Nat → Node)) :
    published.publishAll history = (published.brought history).getLastD published ∧
      (published.publishAll history).generation =
        published.generation + (published.brought history).length := by
  -- By the last update: it either changes neither side or adds its snapshot to both.
  induction history using List.reverseRecOn with
  | nil => exact ⟨rfl, rfl⟩
  | append_singleton done turns ih =>
    obtain ⟨hlast, hgeneration⟩ := ih
    rw [publishAll_concat]
    cases h : (published.publishAll done).updateInTurns turns with
    | error f =>
      rw [publish_of_error h, brought_concat_of_error h]
      exact ⟨hlast, hgeneration⟩
    | ok next =>
      rw [publish_of_ok h, brought_concat_of_ok h, generation_of_updateInTurns h, hgeneration]
      exact ⟨List.getLastD_concat.symm, by rw [List.length_append, List.length_singleton]; rfl⟩

end

/-- What is published after updates from any nodes: the last snapshot that they have brought, under
the number of those that they have brought. A further update that fails leaves it as it is, and one
that brings a snapshot publishes that one. Whether it does, and which transactions, inscriptions and
outputs it brings, hangs on what the node answers to its calls, whatever was published before. -/
theorem publishAll_history (history : List (Nat → Node)) (turns : Nat → Node) :
    let published := ({} : Snapshot).publishAll history
    let brought := ({} : Snapshot).brought history
    published = brought.getLastD {} ∧ published.generation = brought.length ∧
      (∀ f, published.updateInTurns turns = .error f →
        ({} : Snapshot).publishAll (history ++ [turns]) = published ∧
          ({} : Snapshot).brought (history ++ [turns]) = brought) ∧
      (∀ next, published.updateInTurns turns = .ok next →
        ({} : Snapshot).publishAll (history ++ [turns]) = next ∧
          ({} : Snapshot).brought (history ++ [turns]) = brought ++ [next]) ∧
      ∀ (earlier : Snapshot) (turns' : Nat → Node), AnswersAlike turns turns' →
        earlier.updateInTurns turns' = (published.updateInTurns turns).map fun s =>
          s.withGeneration (earlier.generation + 1) := by
  intro published brought
  obtain ⟨hlast, hgeneration⟩ := publishAll_eq_getLastD {} history
  refine ⟨hlast, hgeneration.trans (Nat.zero_add _), fun f hf => ?_, fun next hnext => ?_,
    fun earlier turns' halike => ?_⟩
  · rw [publishAll_concat, publish_of_error hf]
    exact ⟨rfl, brought_concat_of_error hf⟩
  · rw [publishAll_concat, publish_of_ok hnext]
    exact ⟨rfl, brought_concat_of_ok hnext⟩
  · rw [halike.updateInTurns_eq, updateInTurns_eq_map published earlier]

/-- An update that brings a snapshot, one that is stopped at an amount that is no decimal, and one
from a node that gives a transaction only when it is asked again: the second leaves what the first
brought, and the third brings nothing of it. -/
theorem publishAll_history_third :
    let body (text : String) : Response := .ofText 200 ("\x7b\"result\": " ++ text ++ "\x7d")
    let first : Nat → Node := fun k _ =>
      if k = 0 then body "[\"a1\"]" else body "\x7b\"txid\": \"a1\"\x7d"
    let second : Nat → Node := fun k _ =>
      if k = 0 then body "[\"a2\"]"
      else body "\x7b\"txid\": \"a2\", \"vout\": [\x7b\"value\": \"x\"\x7d]\x7d"
    let third : Nat → Node := fun k _ =>
      if k = 0 then body "[\"a3\", \"a3\"]"
      else if k = 1 then .unreachable else body "\x7b\"txid\": \"a3\"\x7d"
    ({} : Snapshot).publishAll [first, second] = ⟨1, [("a1", .bare "a1")], [], []⟩ ∧
      ({} : Snapshot).publishAll [first, second, third] = ⟨2, [("a3", .bare "a3")], [], []⟩ := by
  intro body first second third
  have hfirst : ({} : Snapshot).publishAll [first] = ⟨1, [("a1", .bare "a1")], [], []⟩ := by
    dsimp only [first, body]
    cbv
  have hsecond : (({} : Snapshot).publishAll [first]).updateInTurns second =
      .error .decimalText := by
    rw [hfirst]
    dsimp only [second, body]
    cbv
  obtain ⟨-, -, hfails, -, -⟩ := publishAll_history [first] second
  have hkept : ({} : Snapshot).publishAll [first, second] = ⟨1, [("a1", .bare "a1")], [], []⟩ :=
    (hfails _ hsecond).1.trans hfirst
  have hthird : (({} : Snapshot).publishAll [first, second]).updateInTurns third =
      .ok ⟨2, [("a3", .bare "a3")], [], []⟩ := by
    rw [hkept]
    dsimp only [third, body]
    cbv
  obtain ⟨-, -, -, hbrings, -⟩ := publishAll_history [first, second] third
  exact ⟨hkept, (hbrings _ hthird).1⟩

end Snapshot

end InscriptionLedger
