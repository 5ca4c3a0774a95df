import InscriptionLedger.Node.Body
import InscriptionLedger.Proofs.NodeAnswers

/-!
# What comes of a call

A call is to come to one of three ends. An object without an error whose status is no refusal brings
its result; an object with an error brings the code and the message of the error; anything else is a
fault of the transport, with the status if that is a refusal. Two kinds of answers come to other
ends: an error that is no object has neither a code nor a message to ask for, which is a wrong type,
and the status of a refusal is lost if its body is a JSON value that is no object.

## Main definitions

* `Response.Tells`, `Response.IsMute`: answers with an object for a body, and those that neither
  bring a result nor explain why there is none
* `Response.Settles`: the ends that a call is to come to
* `Response.IsShapeless`: refusals whose bodies are values that are no objects

## Main results

* `Response.result_cases`: what comes of an answer
* `Response.settles_result_iff`: the answers that come to the ends that they are to come to
* `Node.settles_call_iff`: the same of calls, and the ends that the other answers come to
-/

namespace InscriptionLedger

open Outcome (FailsIn)

namespace Response

/-- An answer with an object for a body, and whether its status refuses the call. -/
inductive Tells : Response → Bool → List (String × Json) → Prop
  | reply {status : Int} {isRefused : Bool} {body : Json.Document} {members : List (String × Json)}
    (object : body.value = .object members) :
    Tells (.reply status isRefused (some body)) isRefused members

/-- An answer that brings no result, and in which no error explains why. -/
def IsMute (r : Response) : Prop :=
  ∀ isRefused members, r.Tells isRefused members →
    isRefused = true ∧ (Json.member members "error").isTruthy = false

/-- A refusal whose body is a value, but no object. -/
inductive IsShapeless : Response → Prop
  | reply {status : Int} {body : Json.Document} (shape : body.value.members? = none) :
    IsShapeless (.reply status true (some body))

/-- A fault that keeps the status that an answer refuses with. -/
def KeepsStatus (r : Response) (fault : TransportFault) : Prop :=
  ∀ status body, r = .reply status true body → fault.status? = some status

/-- The code and the message of an error, with the defaults for what it does not hold. -/
def told (error : Json) : NodeFault :=
  let members := error.members?.getD []
  .error (Json.memberOr members "code" (.integer (-1)))
    (Json.memberOr members "message" (.text "unknown"))

/-- The ends that a call is to come to: a result, exactly of an object without an error whose status
is no refusal; an error with its code and its message, exactly of an object with an error of any
type; a fault of the transport otherwise, with the status of a refusal; and nothing else. -/
structure Settles (r : Response) (outcome : Outcome Json) : Prop where
  returns : ∀ v, outcome = .ok v ↔ ∃ members, r.Tells false members ∧
    (Json.member members "error").isTruthy = false ∧ v = Json.member members "result"
  raises : ∀ code message, outcome = .error (.node (.error code message)) ↔
    ∃ isRefused members, r.Tells isRefused members ∧
      (Json.member members "error").isTruthy = true ∧
      .error code message = told (Json.member members "error")
  transports : r.IsMute → ∃ fault, outcome = .error (.node (.transport fault)) ∧
    r.KeepsStatus fault
  isNodeFault : FailsIn (fun f => f.isNodeFault = true) outcome

/-! ## What comes of an answer -/

variable {r : Response} {status : Int} {isRefused isRefused' : Bool} {body : Json.Document}
  {members : List (String × Json)}

theorem Tells.unique {members' : List (String × Json)} (h : r.Tells isRefused members)
    (h' : r.Tells isRefused' members') : isRefused = isRefused' ∧ members = members' := by
  cases h with
  | reply object =>
    cases h' with
    | reply object' =>
      rw [object, Json.object.injEq] at object'
      exact ⟨rfl, object'⟩

theorem result_of_object (object : body.value = .object members) :
    (reply status isRefused (some body)).result = resultOf status isRefused members := by
  rw [result, object]

theorem failureOf_eq_told {error : Json} (h : error.members? ≠ none) :
    failureOf error = .node (told error) := by
  cases error with
  | object members => rfl
  | _ => exact absurd rfl h

/-- Without a document, the fault keeps the status of a refusal. -/
theorem status?_faultOf (status : Int) : (faultOf status true).status? = some status := by
  unfold faultOf
  split
  · next h401 =>
    rw [h401]
    rfl
  · rfl

/-- A value that is no object is unexpected, whatever the status. -/
theorem result_of_no_object (shape : body.value.members? = none) :
    (reply status isRefused (some body)).result = .error (.node (.transport .unexpected)) := by
  rw [result]
  split
  · next members object =>
    rw [object] at shape
    cases shape
  · rfl

theorem not_tells_of_no_object (shape : body.value.members? = none) :
    ¬(reply status isRefused (some body)).Tells isRefused' members := by
  rintro ⟨object⟩
  rw [object] at shape
  cases shape

/-- What comes of an object: its result, the failure that its error tells of, or a fault with the
status of the refusal. -/
theorem result_cases_of_object (status : Int) (isRefused : Bool)
    (object : body.value = .object members) :
    (isRefused = false ∧ (Json.member members "error").isTruthy = false ∧
      (reply status isRefused (some body)).result = .ok (Json.member members "result")) ∨
    ((Json.member members "error").isTruthy = true ∧
      (reply status isRefused (some body)).result =
        .error (failureOf (Json.member members "error"))) ∨
    ((reply status isRefused (some body)).IsMute ∧
      (reply status isRefused (some body)).result =
        .error (.node (.transport (.unexplained status)))) := by
  rw [result_of_object object, resultOf]
  by_cases herror : (Json.member members "error").isTruthy = true
  · exact .inr (.inl ⟨herror, if_pos herror⟩)
  · rw [if_neg herror]
    rw [Bool.not_eq_true] at herror
    cases isRefused with
    | true =>
      refine .inr (.inr ⟨fun isRefused' members' htells => ?_, rfl⟩)
      obtain ⟨rfl, rfl⟩ := htells.unique (.reply object)
      exact ⟨rfl, herror⟩
    | false => exact .inl ⟨rfl, herror, rfl⟩

/-- What comes of an answer: the result of an object without an error whose status is no refusal,
the failure that an error of an object tells of, or a fault of the transport. -/
theorem result_cases (r : Response) :
    (∃ members, r.Tells false members ∧ (Json.member members "error").isTruthy = false ∧
      r.result = .ok (Json.member members "result")) ∨
    (∃ isRefused members, r.Tells isRefused members ∧
      (Json.member members "error").isTruthy = true ∧
      r.result = .error (failureOf (Json.member members "error"))) ∨
    (r.IsMute ∧ ∃ fault, r.result = .error (.node (.transport fault)) ∧
      (r.IsShapeless ∨ r.KeepsStatus fault)) := by
  cases r with
  | unreachable => exact .inr (.inr ⟨nofun, .unreachable, rfl, .inr nofun⟩)
  | reply status isRefused body =>
    cases body with
    | none =>
      refine .inr (.inr ⟨nofun, faultOf status isRefused, rfl, .inr ?_⟩)
      rintro _ _ ⟨⟩
      exact status?_faultOf status
    | some body =>
      cases hshape : body.value.members? with
      | some members =>
        have object : body.value = .object members := by
          generalize body.value = value at hshape
          cases value with
          | object _ => rw [Option.some.inj hshape]
          | _ => cases hshape
        have htells : (reply status isRefused (some body)).Tells isRefused members := .reply object
        rcases result_cases_of_object status isRefused object with ⟨rfl, herror, hresult⟩ |
          ⟨herror, hresult⟩ | ⟨hmute, hresult⟩
        · exact .inl ⟨members, htells, herror, hresult⟩
        · exact .inr (.inl ⟨isRefused, members, htells, herror, hresult⟩)
        · refine .inr (.inr ⟨hmute, _, hresult, .inr ?_⟩)
          rintro _ _ ⟨⟩
          rfl
      | none =>
        have hmute : (reply status isRefused (some body)).IsMute :=
          fun _ _ htells => absurd htells (not_tells_of_no_object hshape)
        refine .inr (.inr ⟨hmute, .unexpected, result_of_no_object hshape, ?_⟩)
        cases isRefused with
        | true => exact .inl ⟨hshape⟩
        | false => exact .inr nofun

/-! ## The ends that calls come to -/

/-- A refusal whose body is a value, but no object, loses its status. -/
theorem IsShapeless.not_settles (h : r.IsShapeless) : ¬r.Settles r.result := by
  obtain ⟨shape⟩ := h
  intro hsettles
  obtain ⟨fault, hfault, hkeeps⟩ := hsettles.transports fun _ _ htells =>
    absurd htells (not_tells_of_no_object shape)
  rw [result_of_no_object shape] at hfault
  cases hfault
  cases hkeeps _ _ rfl

/-- An error that is no object comes to another end. -/
theorem IsBare.not_settles (h : r.IsBare) : ¬r.Settles r.result :=
  fun hsettles => by cases hsettles.isNodeFault _ h.result_eq

theorem Tells.settles_ok (h : r.Tells false members)
    (herror : (Json.member members "error").isTruthy = false) :
    r.Settles (.ok (Json.member members "result")) := by
  constructor
  case returns =>
    intro v
    rw [Except.ok.injEq]
    constructor
    · rintro rfl
      exact ⟨members, h, herror, rfl⟩
    · rintro ⟨_, h', -, rfl⟩
      rw [(h.unique h').2]
  case raises =>
    refine fun code message => ⟨nofun, ?_⟩
    rintro ⟨_, _, h', herror', -⟩
    rw [← (h.unique h').2, herror] at herror'
    cases herror'
  case transports =>
    intro hmute
    cases (hmute false members h).1
  case isNodeFault => exact .ok _

theorem Tells.settles_error (h : r.Tells isRefused members)
    (herror : (Json.member members "error").isTruthy = true) :
    r.Settles (.error (.node (told (Json.member members "error")))) := by
  constructor
  case returns =>
    refine fun v => ⟨nofun, ?_⟩
    rintro ⟨_, h', herror', -⟩
    rw [← (h.unique h').2, herror] at herror'
    cases herror'
  case raises =>
    intro code message
    rw [Except.error.injEq, Failure.node.injEq]
    constructor
    · exact fun htold => ⟨isRefused, members, h, herror, htold.symm⟩
    · rintro ⟨_, _, h', -, htold⟩
      rw [htold, (h.unique h').2]
  case transports =>
    intro hmute
    have herror' := (hmute isRefused members h).2
    rw [herror] at herror'
    cases herror'
  case isNodeFault => exact .error rfl

theorem IsMute.settles (h : r.IsMute) {fault : TransportFault} (hstatus : r.KeepsStatus fault) :
    r.Settles (.error (.node (.transport fault))) := by
  constructor
  case returns =>
    refine fun v => ⟨nofun, ?_⟩
    rintro ⟨members, htells, -, -⟩
    cases (h false members htells).1
  case raises =>
    refine fun code message => ⟨nofun, ?_⟩
    rintro ⟨isRefused, members, htells, herror, -⟩
    rw [(h isRefused members htells).2] at herror
    cases herror
  case transports => exact fun _ => ⟨fault, rfl, hstatus⟩
  case isNodeFault => exact .error rfl

/-- The answers that come to the ends that they are to come to. -/
theorem settles_result_iff (r : Response) :
    r.Settles r.result ↔ ¬r.IsBare ∧ ¬r.IsShapeless := by
  constructor
  · exact fun h => ⟨fun hbare => hbare.not_settles h, fun hshape => hshape.not_settles h⟩
  · rintro ⟨hbare, hshape⟩
    rcases r.result_cases with ⟨members, htells, herror, hresult⟩ |
      ⟨isRefused, members, htells, herror, hresult⟩ | ⟨hmute, fault, hresult, hstatus⟩
    · rw [hresult]
      exact htells.settles_ok herror
    · -- The error is an object, as the answer would be bare otherwise.
      have hobject : (Json.member members "error").members? ≠ none := by
        intro hnone
        obtain ⟨object⟩ := htells
        exact hbare (.reply object herror hnone)
      rw [hresult, failureOf_eq_told hobject]
      exact htells.settles_error herror
    · rw [hresult]
      exact hmute.settles (hstatus.resolve_left hshape)

theorem result_eq_wrongType_iff (r : Response) : r.result = .error .wrongType ↔ r.IsBare := by
  constructor
  · intro h
    by_contra hbare
    cases isNodeFault_of_result hbare h
  · exact IsBare.result_eq

theorem faultOf_ne_unexpected (status : Int) (isRefused : Bool) :
    faultOf status isRefused ≠ .unexpected := by
  unfold faultOf
  split
  · nofun
  · split <;> nofun

theorem failureOf_ne_unexpected (error : Json) :
    failureOf error ≠ .node (.transport .unexpected) := by
  intro h
  cases error with
  | object members => cases h
  | _ => cases h

theorem resultOf_ne_unexpected (status : Int) (isRefused : Bool) (members : List (String × Json)) :
    resultOf status isRefused members ≠ .error (.node (.transport .unexpected)) := by
  intro h
  rw [resultOf] at h
  split at h
  · exact failureOf_ne_unexpected _ (Except.error.inj h)
  · split at h <;> cases h

theorem result_eq_unexpected_iff (r : Response) :
    r.result = .error (.node (.transport .unexpected)) ↔ ∃ status isRefused body,
      r = .reply status isRefused (some body) ∧ body.value.members? = none := by
  constructor
  · intro h
    cases r with
    | unreachable => cases h
    | reply status isRefused body =>
      cases body with
      | none =>
        have hfault := NodeFault.transport.inj (Failure.node.inj (Except.error.inj h))
        exact absurd hfault (faultOf_ne_unexpected status isRefused)
      | some body =>
        refine ⟨status, isRefused, body, rfl, ?_⟩
        cases hshape : body.value.members? with
        | none => rfl
        | some members =>
          generalize hvalue : body.value = value at hshape
          cases value with
          | object _ =>
            rw [result_of_object hvalue] at h
            exact absurd h (resultOf_ne_unexpected _ _ _)
          | _ => cases hshape
  · rintro ⟨status, isRefused, body, rfl, shape⟩
    exact result_of_no_object shape

/-- Two answers that come to other ends: an error that is a text, and a refusal with a list. -/
theorem not_settles_text_and_list :
    let text : Response := .ofText 500 "\x7b\"result\": null, \"error\": \"busy\"\x7d"
    let list : Response := .ofText 500 "[]"
    ¬text.Settles text.result ∧ ¬list.Settles list.result := by
  intro text list
  have htext : text = .reply 500 true
      (some ⟨.object [("result", .null), ("error", .text "busy")], rfl⟩) := by
    dsimp only [text]
    cbv
  have hlist : list = .reply 500 true (some ⟨.list [], rfl⟩) := by
    dsimp only [list]
    cbv
  have hbare : text.IsBare := htext ▸ .reply rfl rfl rfl
  have hshape : list.IsShapeless := hlist ▸ .reply rfl
  exact ⟨hbare.not_settles, hshape.not_settles⟩

end Response

namespace Node

/-- A call comes to the end that it is to come to, unless its answer is one of two kinds: an error
that is no object is a wrong type, which is no failure of the node, and the status of a refusal is
lost if its body is a value that is no object. -/
theorem settles_call_iff (node : Node) (c : Call) :
    ((node c).Settles (node.call c) ↔ ¬(node c).IsBare ∧ ¬(node c).IsShapeless) ∧
      (node.call c = .error .wrongType ↔ (node c).IsBare) ∧
      (node.call c = .error (.node (.transport .unexpected)) ↔ ∃ status isRefused body,
        node c = .reply status isRefused (some body) ∧ body.value.members? = none) :=
  ⟨(node c).settles_result_iff, (node c).result_eq_wrongType_iff, (node c).result_eq_unexpected_iff⟩

end Node

end InscriptionLedger
