import InscriptionLedger.Proofs.Binary64Range
import InscriptionLedger.Proofs.EndpointUrls
import InscriptionLedger.Proofs.SettingsPrecedence
import InscriptionLedger.Settings.ViewSettings

/-!
# How settings can fail

Settings that are wrong should be told of as such, since nothing else is handled where they are
asked for. Most of them are: a section of the wrong shape, a text that is no number, a word that
names nothing. What is missed is a value that is no text where a URL or a path is read, a URL that
cannot be taken apart, a number beyond all range, and a home that is not known. What is wrong is
told by its text, which is missed as well if it has an integer that is too long to be written.

## Main definitions

* `Failure.IsOfSettings`: failures that tell of the settings
* `Json.BreaksPort`, `Json.BreaksTimeout`, `Endpoint.Breaks`: the ways in which a port, a time and
  an endpoint fail otherwise
* `NodeSettings.Breaks`, `ViewSettings.Breaks`: the ways in which the settings fail otherwise

## Main results

* `Endpoint.read?_eq_error_iff`: how an endpoint fails otherwise
* `PathName.expandHome_eq_error_iff`: when a home is not known
* `NodeSettings.load?_eq_error_iff`, `ViewSettings.load?_eq_error_iff`: how settings fail otherwise
* `Sources.fails_otherwise_iff`: both settings fail otherwise exactly in these ways
* `Sources.not_forall_isOfSettings`: they do
-/

namespace InscriptionLedger

/-- Failures that tell of the settings. -/
def Failure.IsOfSettings : Failure → Prop
  | settings _ => True
  | _ => False

/-! ## Values that are no text or no number -/

/-- A value that counts as present and is no text. -/
structure Json.IsUntextual (value : Json) : Prop where
  present : value.isTruthy = true
  noText : ∀ s, value ≠ .text s

/-- An infinite value. -/
def Json.IsInfinite (value : Json) : Prop := ∃ negative, value = .double (.infinity negative)

/-- An integer beyond the range of floating-point numbers. -/
def Json.IsHuge (value : Json) : Prop :=
  ∃ n, value = .integer n ∧ Binary64.leastBeyond ≤ n.natAbs

/-- A list or an object with an integer that is too long to be written. -/
structure Json.IsOverlong (value : Json) : Prop where
  compound : value.isScalar = false
  long : value.isShort = false

/-- The ways in which a port fails otherwise. -/
inductive Json.BreaksPort (value : Json) : Failure → Prop
  | infinite (infinite : value.IsInfinite) : value.BreaksPort .magnitude
  | overlong (overlong : value.IsOverlong) : value.BreaksPort .unwritable

theorem Json.not_breaksPort_null (f : Failure) : ¬Json.null.BreaksPort f := by
  rintro (⟨_, ⟨⟩⟩ | h)
  cases h.compound

theorem Json.not_breaksPort_text (s : String) (f : Failure) : ¬(Json.text s).BreaksPort f := by
  rintro (⟨_, ⟨⟩⟩ | h)
  cases h.compound

/-- The ways in which a time to wait fails otherwise. -/
inductive Json.BreaksTimeout (value : Json) : Failure → Prop
  | huge (huge : value.IsHuge) : value.BreaksTimeout .magnitude
  | overlong (overlong : value.IsOverlong) : value.BreaksTimeout .unwritable

theorem Json.toText_eq_error_iff {value : Json} {f : Failure} :
    value.toText = .error f ↔ f = .wrongType ∧ ∀ s, value ≠ .text s := by
  cases value with
  | text s => exact iff_of_false nofun fun h => h.2 s rfl
  | _ =>
    rw [toText, Except.error.injEq, eq_comm]
    · exact ⟨fun hf => ⟨hf, nofun⟩, And.left⟩
    · exact nofun

theorem Json.toInt_eq_magnitude_iff {value : Json} :
    value.toInt = .error .magnitude ↔ value.IsInfinite := by
  cases value with
  | double x =>
    cases x with
    | infinity negative => exact iff_of_true rfl ⟨negative, rfl⟩
    | undefined => simp [toInt, IsInfinite, Failure.unreadable]
    | finite _ _ _ => simp [toInt, IsInfinite]
  | text s =>
    rw [toInt]
    split
    · simp [IsInfinite]
    · simp [IsInfinite, Failure.unreadable]
  | _ => simp [toInt, IsInfinite]

/-- A value that cannot be written, and that is read as no integer for another reason than its
magnitude, is a list or an object. -/
theorem Json.isOverlong_iff_toInt {value : Json} :
    value.IsOverlong ↔ value.isShort = false ∧ ∃ f, value.toInt = .error f ∧ f ≠ .magnitude := by
  cases value with
  | list items => exact ⟨fun h => ⟨h.long, _, rfl, nofun⟩, fun h => ⟨rfl, h.1⟩⟩
  | object members => exact ⟨fun h => ⟨h.long, _, rfl, nofun⟩, fun h => ⟨rfl, h.1⟩⟩
  | integer n => exact iff_of_false (fun h => nomatch h.compound) fun ⟨_, _, h, _⟩ => nomatch h
  | _ => exact iff_of_false (fun h => nomatch h.compound) fun h => nomatch h.1

/-- The same of a value that is read as no floating-point number. -/
theorem Json.isOverlong_iff_toBinary64 {value : Json} :
    value.IsOverlong ↔
      value.isShort = false ∧ ∃ f, value.toBinary64 = .error f ∧ f ≠ .magnitude := by
  cases value with
  | list items => exact ⟨fun h => ⟨h.long, _, rfl, nofun⟩, fun h => ⟨rfl, h.1⟩⟩
  | object members => exact ⟨fun h => ⟨h.long, _, rfl, nofun⟩, fun h => ⟨rfl, h.1⟩⟩
  | integer n =>
    refine iff_of_false (fun h => nomatch h.compound) ?_
    rintro ⟨-, f, hf, hother⟩
    rw [toBinary64] at hf
    split at hf
    · exact hother (Except.error.inj hf).symm
    · cases hf
  | _ => exact iff_of_false (fun h => nomatch h.compound) fun h => nomatch h.1

theorem Json.toBinary64_eq_magnitude_iff {value : Json} :
    value.toBinary64 = .error .magnitude ↔ value.IsHuge := by
  cases value with
  | integer n =>
    have hbound := Binary64.ofInt_eq_infinity_iff (n := n)
    have hhuge : (Json.integer n).IsHuge ↔ Binary64.leastBeyond ≤ n.natAbs := by
      simp [IsHuge]
    rw [hhuge, ← hbound, toBinary64]
    split
    · next negative hinfinite => exact iff_of_true rfl ⟨negative, hinfinite⟩
    · next hfinite => exact iff_of_false nofun fun ⟨negative, h⟩ => hfinite negative h
  | text s =>
    rw [toBinary64]
    split
    · simp [IsHuge]
    · simp [IsHuge, Failure.unreadable]
  | _ => simp [toBinary64, IsHuge]

/-! ## Endpoints -/

namespace Endpoint

/-- The authority of a URL. -/
def netloc (s : String) : List Char := authority (splitScheme (clean s)).2

/-- Characters of a port: digits, few enough, of a number that is not too great. -/
structure IsPort (cs : List Char) : Prop where
  digits : ∀ c ∈ cs, c.isDigit = true
  few : cs.length ≤ Numeral.maxDigits
  small : Numeral.value (cs.map fun c => c.toNat - 0x30) ≤ 65535

/-- A URL that tells neither a scheme nor a host, which is a fault of the settings. -/
structure IsEmpty (s : String) : Prop where
  scheme : (splitScheme (clean s)).1 = none
  host : (hostAndPort (netloc s)).1 = []

/-- The ways in which the endpoint of a value fails otherwise: the value is no text, or a URL whose
authority is not in order or whose port is none. -/
inductive Breaks : Json → Failure → Prop
  | untextual {value : Json} (untextual : value.IsUntextual) : Breaks value .wrongType
  | authority {s : String} (bad : isGood (netloc s) = false) : Breaks (.text s) .unreadable
  | port {s : String} (good : isGood (netloc s) = true) (told : ¬IsEmpty s)
    (given : (hostAndPort (netloc s)).2 ≠ []) (noPort : ¬IsPort (hostAndPort (netloc s)).2) :
    Breaks (.text s) .unreadable

theorem port?_eq_error_iff {cs : List Char} {f : Failure} :
    port? cs = .error f ↔ f = .unreadable ∧ cs ≠ [] ∧ ¬IsPort cs := by
  unfold port?
  split
  · next hnil => exact iff_of_false nofun fun h => h.2.1 hnil
  · next hne =>
    split
    · next hdigits =>
      rw [Bool.and_eq_true, List.all_eq_true, decide_eq_true_eq] at hdigits
      dsimp only
      split
      · next hsmall =>
        exact iff_of_false nofun fun h => h.2.2 ⟨hdigits.1, hdigits.2, hsmall⟩
      · next hgreat =>
        rw [Except.error.injEq, eq_comm]
        exact (and_iff_left ⟨hne, fun hport => hgreat hport.small⟩).symm
    · next hother =>
      rw [Bool.and_eq_true, List.all_eq_true, decide_eq_true_eq] at hother
      rw [Except.error.injEq, eq_comm]
      exact (and_iff_left ⟨hne, fun hport => hother ⟨hport.digits, hport.few⟩⟩).symm

/-- The ways in which a URL breaks. -/
theorem breaks_text_iff {s : String} {f : Failure} :
    Breaks (.text s) f ↔ f = .unreadable ∧ (isGood (netloc s) = true → ¬IsEmpty s ∧
      (hostAndPort (netloc s)).2 ≠ [] ∧ ¬IsPort (hostAndPort (netloc s)).2) := by
  constructor
  · intro h
    cases h with
    | untextual h => exact absurd rfl (h.noText s)
    | authority hbad => exact ⟨rfl, fun hgood => absurd (hbad.symm.trans hgood) nofun⟩
    | port _ htold hgiven hnoPort => exact ⟨rfl, fun _ => ⟨htold, hgiven, hnoPort⟩⟩
  · rintro ⟨rfl, h⟩
    cases hgood : isGood (netloc s) with
    | false => exact .authority hgood
    | true =>
      obtain ⟨htold, hgiven, hnoPort⟩ := h hgood
      exact .port hgood htold hgiven hnoPort

section

variable {f : Failure} (hf : ¬f.IsOfSettings)

include hf

theorem ofText?_eq_error_iff {s : String} : ofText? s = .error f ↔ Breaks (.text s) f := by
  rw [breaks_text_iff]
  unfold ofText?
  dsimp only
  split
  · next hgood =>
    split
    · next hempty =>
      refine iff_of_false (fun h => hf ?_) fun h => ?_
      · obtain rfl := Except.error.inj h
        trivial
      · exact (h.2 hgood).1 ⟨Option.isNone_iff_eq_none.1 hempty.1, hempty.2⟩
    · next htold =>
      have htold : ¬IsEmpty s := fun h => htold ⟨Option.isNone_iff_eq_none.2 h.scheme, h.host⟩
      rw [Outcome.bind_eq_error_iff, port?_eq_error_iff, or_iff_left (by simp)]
      exact and_congr_right fun _ => ⟨fun h _ => ⟨htold, h⟩, fun h => (h hgood).2⟩
  · next hbad =>
    rw [Except.error.injEq, eq_comm]
    exact (and_iff_left fun hgood => absurd hgood hbad).symm

/-- How an endpoint fails otherwise. -/
theorem read?_eq_error_iff {value : Json} : read? value = .error f ↔ Breaks value f := by
  by_cases htext : ∃ s, value = .text s
  · obtain ⟨s, rfl⟩ := htext
    by_cases hnone : s = ""
    · -- A text without characters would be a fault of the settings, were it read.
      subst hnone
      refine iff_of_false (by simp [read?, Json.isTruthy]) fun h => hf ?_
      obtain rfl := Except.error.inj ((ofText?_eq_error_iff hf).2 h)
      trivial
    · rw [read?_text hnone]
      exact ofText?_eq_error_iff hf
  · push Not at htext
    by_cases hpresent : value.isTruthy = true
    · rw [read?, if_pos hpresent, Json.toText_eq_error_iff.2 ⟨rfl, htext⟩, Outcome.error_bind,
        Except.error.injEq]
      constructor
      · rintro rfl
        exact .untextual ⟨hpresent, htext⟩
      · intro h
        cases h with
        | untextual _ => rfl
        | authority _ => exact absurd rfl (htext _)
        | port _ _ _ _ => exact absurd rfl (htext _)
    · rw [read?, if_neg hpresent]
      refine iff_of_false (by simp) fun h => ?_
      cases h with
      | untextual h => exact hpresent h.present
      | authority _ => exact htext _ rfl
      | port _ _ _ _ => exact htext _ rfl

end

end Endpoint

/-! ## Homes -/

namespace PathName

/-- A path name that starts at a home that is not known, or that starts with a tilde itself. -/
def IsLost (homes : Homes) (p : PathName) : Prop :=
  p.root = "" ∧ ∃ first account, p.names.head? = some first ∧ first.toList = '~' :: account ∧
    ∀ home ∈ homes.get? (String.ofList account), (homeText home).toList.head? = some '~'

theorem isLost_iff {homes : Homes} {p : PathName} (hroot : p.root = "") {first : String}
    {rest : List String} (hnames : p.names = first :: rest) {account : List Char}
    (hfirst : first.toList = '~' :: account) :
    p.IsLost homes ↔ ∀ home ∈ homes.get? (String.ofList account),
      (homeText home).toList.head? = some '~' := by
  rw [IsLost, hnames]
  constructor
  · rintro ⟨-, _, account', hhead, hfirst', h⟩
    obtain rfl := Option.some.inj hhead
    obtain rfl : account = account' := (List.cons.inj (hfirst.symm.trans hfirst')).2
    exact h
  · exact fun h => ⟨hroot, first, account, rfl, hfirst, h⟩

/-- A home is missing exactly if the path name is lost. -/
theorem expandHome_eq_error_iff {homes : Homes} {p : PathName} {f : Failure} :
    p.expandHome homes = .error f ↔ f = .unknownAccount ∧ p.IsLost homes := by
  unfold expandHome
  -- Only the first name of a path without a root can stand for a home.
  split
  · next first rest hroot hnames =>
    split
    · next account hfirst =>
      rw [isLost_iff hroot hnames hfirst]
      cases homes.get? (String.ofList account) with
      | none =>
        show Except.error _ = _ ↔ _
        rw [Except.error.injEq, eq_comm]
        exact (and_iff_left nofun).symm
      | some home =>
        show (if (homeText home).toList.head? = some '~' then _ else _) = _ ↔ _
        simp only [Option.mem_some_iff, forall_eq']
        split
        · next htilde =>
          rw [Except.error.injEq, eq_comm]
          exact (and_iff_left htilde).symm
        · next hhome => exact iff_of_false nofun fun h => hhome h.2
    · next hplain =>
      refine iff_of_false nofun ?_
      rintro ⟨-, -, first', account, hhead, hfirst, -⟩
      rw [hnames] at hhead
      obtain rfl := Option.some.inj hhead
      exact hplain account hfirst
  · next hother =>
    refine iff_of_false nofun ?_
    rintro ⟨-, hroot, first, account, hhead, -⟩
    obtain ⟨rest, hnames⟩ := List.head?_eq_some_iff.1 hhead
    exact hother first rest hroot hnames

end PathName

/-! ## Settings of the node -/

/-- A section that cannot be read is a fault of the settings. -/
theorem Sources.members?_ne_error {f : Failure} (hf : ¬f.IsOfSettings) (s : Sources)
    (name : String) : s.members? name ≠ .error f := by
  have hfile : s.fileMembers? ≠ .error f := by
    unfold fileMembers?
    split
    · split
      · rintro ⟨⟩
        exact hf trivial
      · nofun
    · split
      · split
        · nofun
        · rintro ⟨⟩
          exact hf trivial
      · nofun
  intro h
  rcases Outcome.bind_eq_error_iff.1 h with h | ⟨members, -, h⟩
  · exact hfile h
  · split at h
    · cases h
    · cases h
    · cases h
      exact hf trivial

/-- A variable is a text if it is given, which is always short enough. -/
theorem Sources.not_breaksPort_nodeVariable (s : Sources) (name : String) (f : Failure) :
    ¬(s.nodeVariable name).BreaksPort f := by
  have hvariable (name : String) : ¬(s.ofEnvironment name).BreaksPort f := by
    unfold ofEnvironment
    cases Keyed.get? s.environment name with
    | none => exact Json.not_breaksPort_null f
    | some text => exact Json.not_breaksPort_text text f
  unfold nodeVariable presentOr
  split
  · exact hvariable _
  · exact hvariable _

namespace NodeSettings

section

variable {f : Failure} (hf : ¬f.IsOfSettings)

include hf

theorem orFault_eq_error_iff {α : Type} {fault : String → SettingsFault} {raw : Json}
    {x : Outcome α} :
    orFault fault raw x = .error f ↔ f = .magnitude ∧ x = .error .magnitude ∨
      f = .unwritable ∧ raw.isShort = false ∧ ∃ g, x = .error g ∧ g ≠ .magnitude := by
  unfold orFault
  split
  · exact iff_of_false nofun (by rintro (⟨-, ⟨⟩⟩ | ⟨-, -, _, ⟨⟩, -⟩))
  · rw [Except.error.injEq, eq_comm]
    refine ⟨fun h => .inl ⟨h, rfl⟩, ?_⟩
    rintro (⟨h, -⟩ | ⟨-, -, g, hg, hother⟩)
    · exact h
    · exact absurd (Except.error.inj hg).symm hother
  · next g hother =>
    have hg : Except.error g ≠ (.error .magnitude : Outcome α) :=
      fun h => hother (Except.error.inj h)
    have hex : ∃ g', (.error g : Outcome α) = .error g' ∧ g' ≠ .magnitude :=
      ⟨g, rfl, fun h => hother h⟩
    rw [or_iff_right fun h => hg h.2, and_iff_left hex, Json.show?_eq_ite]
    cases raw.isShort with
    | true =>
      refine iff_of_false (fun h => hf ?_) nofun
      obtain rfl := Except.error.inj h
      trivial
    | false =>
      rw [if_neg Bool.false_ne_true, Outcome.error_bind, Except.error.injEq, eq_comm]
      exact (and_iff_left rfl).symm

/-- How a port fails otherwise. -/
theorem port?_eq_error_iff {source : String} {raw : Json} :
    port? source raw = .error f ↔ raw.BreaksPort f := by
  unfold port?
  split
  · exact iff_of_false nofun (Json.not_breaksPort_null f)
  · simp only [orFault_eq_error_iff hf, Outcome.map_eq_error_iff, Json.toInt_eq_magnitude_iff,
      ← Json.isOverlong_iff_toInt]
    constructor
    · rintro (⟨rfl, hinfinite⟩ | ⟨rfl, hoverlong⟩)
      · exact .infinite hinfinite
      · exact .overlong hoverlong
    · rintro (hinfinite | hoverlong)
      · exact .inl ⟨rfl, hinfinite⟩
      · exact .inr ⟨rfl, hoverlong⟩

/-- How a time to wait fails otherwise. -/
theorem timeout?_eq_error_iff {raw : Json} : timeout? raw = .error f ↔ raw.BreaksTimeout f := by
  rw [timeout?, orFault_eq_error_iff hf, Json.toBinary64_eq_magnitude_iff,
    ← Json.isOverlong_iff_toBinary64]
  constructor
  · rintro (⟨rfl, hhuge⟩ | ⟨rfl, hoverlong⟩)
    · exact .huge hhuge
    · exact .overlong hoverlong
  · rintro (hhuge | hoverlong)
    · exact .inl ⟨rfl, hhuge⟩
    · exact .inr ⟨rfl, hoverlong⟩

end

/-- Sources that are read up to the credentials, with a section of the file. -/
structure IsReady (s : Sources) (file : List (String × Json)) : Prop where
  isRead : s.members? "rpc" = .ok file
  port : ∃ p, port? "environment" (s.nodeVariable "PORT") = .ok p
  endpoint : ∃ e, Endpoint.read? (s.endpointValue file) = .ok e
  user : (s.userValue file).isTruthy = true
  password : (s.passwordValue file).isTruthy = true

/-- The ways in which the settings of the node fail otherwise, with all that is read before. -/
inductive Breaks (s : Sources) : Failure → Prop
  | endpoint {file : List (String × Json)} {f : Failure} (isRead : s.members? "rpc" = .ok file)
    (port : ∃ p, port? "environment" (s.nodeVariable "PORT") = .ok p)
    (breaks : Endpoint.Breaks (s.endpointValue file) f) : Breaks s f
  | portOfOverrides {file : List (String × Json)} {f : Failure} (ready : IsReady s file)
    (breaks : (s.override "port").BreaksPort f) : Breaks s f
  | portOfFile {file : List (String × Json)} {f : Failure} (ready : IsReady s file)
    (overrides : ∃ p, port? "overrides" (s.override "port") = .ok p)
    (breaks : (Json.member file "port").BreaksPort f) : Breaks s f
  | timeout {file : List (String × Json)} {f : Failure} (ready : IsReady s file)
    (overrides : ∃ p, port? "overrides" (s.override "port") = .ok p)
    (ofFile : ∃ p, port? (s.path.text ++ " rpc.port") (Json.member file "port") = .ok p)
    (breaks : (s.timeoutValue file).BreaksTimeout f) : Breaks s f

/-- How sources that are read up to the credentials fail. -/
theorem load?_eq_error_iff_of_isReady {s : Sources} {file : List (String × Json)}
    (h : IsReady s file) {f : Failure} :
    load? s = .error f ↔ port? "overrides" (s.override "port") = .error f ∨
      (∃ p, port? "overrides" (s.override "port") = .ok p) ∧
        (port? (s.path.text ++ " rpc.port") (Json.member file "port") = .error f ∨
          (∃ p, port? (s.path.text ++ " rpc.port") (Json.member file "port") = .ok p) ∧
            timeout? (s.timeoutValue file) = .error f) := by
  obtain ⟨hread, ⟨p, hp⟩, ⟨e, he⟩, huser, hpassword⟩ := h
  have hgiven : (!(s.userValue file).isTruthy || !(s.passwordValue file).isTruthy) = false := by
    rw [huser, hpassword]
    rfl
  unfold load?
  rw [hread, Outcome.ok_bind, hp, Outcome.ok_bind]
  show Endpoint.read? (s.endpointValue file) >>= _ = _ ↔ _
  rw [he, Outcome.ok_bind]
  dsimp only
  split
  · next hmissing => exact absurd (hmissing.symm.trans hgiven) nofun
  · -- The three parts that are left do not use what the others have read.
    rw [Outcome.bind_eq_error_iff, ← exists_and_right]
    apply or_congr_right
    refine exists_congr fun portOfOverrides => and_congr_right fun _ => ?_
    rw [Outcome.bind_eq_error_iff, ← exists_and_right]
    apply or_congr_right
    refine exists_congr fun portOfFile => and_congr_right fun _ => ?_
    rw [Outcome.bind_eq_error_iff, or_iff_left (by simp)]
    rfl

/-- How the settings of the node fail otherwise. -/
theorem load?_eq_error_iff {f : Failure} (hf : ¬f.IsOfSettings) {s : Sources} :
    load? s = .error f ↔ Breaks s f := by
  constructor
  · -- The parts fail in the order in which they are read.
    intro h
    have hload := h
    unfold load? at h
    rcases Outcome.bind_eq_error_iff.1 h with h | ⟨file, hread, h⟩
    · exact absurd h (s.members?_ne_error hf _)
    rcases Outcome.bind_eq_error_iff.1 h with h | ⟨portOfEnvironment, hp, h⟩
    · exact absurd ((port?_eq_error_iff hf).1 h) (s.not_breaksPort_nodeVariable _ _)
    rcases Outcome.bind_eq_error_iff.1 h with h | ⟨e, he, h⟩
    · exact .endpoint hread ⟨_, hp⟩ ((Endpoint.read?_eq_error_iff hf).1 h)
    dsimp only at h
    split at h
    · cases h
      exact absurd trivial hf
    · next hgiven =>
      simp only [Bool.or_eq_true, Bool.not_eq_true', not_or, Bool.not_eq_false] at hgiven
      have hready : IsReady s file := ⟨hread, ⟨_, hp⟩, ⟨e, he⟩, hgiven.1, hgiven.2⟩
      rw [load?_eq_error_iff_of_isReady hready, port?_eq_error_iff hf, port?_eq_error_iff hf,
        timeout?_eq_error_iff hf] at hload
      rcases hload with hbreaks | ⟨hoverrides, hbreaks | ⟨hfile, hbreaks⟩⟩
      · exact .portOfOverrides hready hbreaks
      · exact .portOfFile hready hoverrides hbreaks
      · exact .timeout hready hoverrides hfile hbreaks
  · intro h
    cases h with
    | endpoint hread hport hbreaks =>
      obtain ⟨p, hp⟩ := hport
      unfold load?
      rw [hread, Outcome.ok_bind, hp, Outcome.ok_bind]
      exact Outcome.bind_eq_error_iff.2 (.inl ((Endpoint.read?_eq_error_iff hf).2 hbreaks))
    | portOfOverrides hready hbreaks =>
      rw [load?_eq_error_iff_of_isReady hready, port?_eq_error_iff hf]
      exact .inl hbreaks
    | portOfFile hready hoverrides hbreaks =>
      rw [load?_eq_error_iff_of_isReady hready]
      exact .inr ⟨hoverrides, .inl ((port?_eq_error_iff hf).2 hbreaks)⟩
    | timeout hready hoverrides hfile hbreaks =>
      rw [load?_eq_error_iff_of_isReady hready]
      exact .inr ⟨hoverrides, .inr ⟨hfile, (timeout?_eq_error_iff hf).2 hbreaks⟩⟩

end NodeSettings

/-! ## Settings of views -/

namespace ViewSettings

/-- The value that the path of the index is read from. -/
def pathValue (s : Sources) (file : List (String × Json)) : Json :=
  given s file "index_path" "ORDVIEW_INDEX_PATH" .null

/-- The value that the selection of the first owner is read from. -/
def ownerValue (s : Sources) (file : List (String × Json)) : Json :=
  given s file "original_owner_key" "ORDVIEW_ORIGINAL_OWNER_KEY" (.text "vout")

/-- Sources that are read up to the network, with a section of the file. -/
structure IsReady (s : Sources) (file : List (String × Json)) : Prop where
  isRead : s.members? "view" = .ok file
  network : ∃ network, network? (given s file "chain" "ORDVIEW_CHAIN" (.text "mainnet")) =
    .ok network

/-- The ways in which the settings of views fail otherwise: the path is no text, or its home is not
known, or the selection of the first owner cannot be written. -/
inductive Breaks (s : Sources) : Failure → Prop
  | untextual {file : List (String × Json)} (ready : IsReady s file)
    (untextual : (pathValue s file).IsUntextual) : Breaks s .wrongType
  | home {file : List (String × Json)} {text : String} (ready : IsReady s file)
    (path : pathValue s file = .text text) (lost : (PathName.read text).IsLost s.homes) :
    Breaks s .unknownAccount
  | ownerKey {file : List (String × Json)} (ready : IsReady s file)
    (path : ∃ p, path? s.homes (pathValue s file) = .ok p)
    (long : (ownerValue s file).isShort = false) : Breaks s .unwritable

/-- How a path fails: its value is no text, or its home is not known. -/
theorem path?_eq_error_iff {homes : Homes} {raw : Json} {f : Failure} :
    path? homes raw = .error f ↔ f = .wrongType ∧ raw.IsUntextual ∨
      f = .unknownAccount ∧ ∃ text, raw = .text text ∧ (PathName.read text).IsLost homes := by
  by_cases htext : ∃ text, raw = .text text
  · obtain ⟨text, rfl⟩ := htext
    have huntextual : ¬(Json.text text).IsUntextual := fun h => h.noText text rfl
    simp only [huntextual, and_false, false_or, Json.text.injEq, exists_eq_left']
    by_cases hnone : text = ""
    · -- Nothing is read from a text without characters, and no tilde is in it.
      subst hnone
      refine iff_of_false (by simp [path?, Json.isTruthy]) ?_
      rintro ⟨-, -, first, account, hhead, -⟩
      cases hhead
    · have hpresent : (Json.text text).isTruthy = true := by simpa [Json.isTruthy] using hnone
      rw [path?, if_pos hpresent]
      show (PathName.read text).expandHome homes >>= _ = _ ↔ _
      rw [Outcome.bind_eq_error_iff, PathName.expandHome_eq_error_iff, or_iff_left (by simp)]
  · push Not at htext
    have hlost : ¬∃ text, raw = .text text ∧ (PathName.read text).IsLost homes := by
      rintro ⟨text, h, -⟩
      exact htext text h
    rw [or_iff_left (fun h => hlost h.2)]
    by_cases hpresent : raw.isTruthy = true
    · rw [path?, if_pos hpresent, Json.toText_eq_error_iff.2 ⟨rfl, htext⟩, Outcome.error_bind,
        Except.error.injEq, eq_comm]
      exact (and_iff_left ⟨hpresent, htext⟩).symm
    · rw [path?, if_neg hpresent]
      exact iff_of_false (by simp) fun h => hpresent h.2.present

section

variable {f : Failure} (hf : ¬f.IsOfSettings)

include hf

theorem network?_ne_error (raw : Json) : network? raw ≠ .error f := by
  unfold network?
  split
  · split
    · nofun
    · rintro ⟨⟩
      exact hf trivial
  · rintro ⟨⟩
    exact hf trivial

/-- The selection of the first owner fails otherwise exactly if its value cannot be written. -/
theorem ownerKey?_eq_error_iff {raw : Json} :
    ownerKey? raw = .error f ↔ f = .unwritable ∧ raw.isShort = false := by
  rw [ownerKey?, Json.show?_eq_ite]
  cases raw.isShort with
  | true =>
    rw [if_pos rfl, Outcome.ok_bind]
    refine iff_of_false (fun h => hf ?_) nofun
    dsimp only at h
    split at h
    · cases h
    · obtain rfl := Except.error.inj h
      trivial
  | false =>
    rw [if_neg Bool.false_ne_true, Outcome.error_bind, Except.error.injEq, eq_comm]
    exact (and_iff_left rfl).symm

/-- How the settings of views fail otherwise. -/
theorem load?_eq_error_iff {s : Sources} : load? s = .error f ↔ Breaks s f := by
  constructor
  · intro h
    rcases Outcome.bind_eq_error_iff.1 h with h | ⟨file, hread, h⟩
    · exact absurd h (s.members?_ne_error hf _)
    rcases Outcome.bind_eq_error_iff.1 h with h | ⟨network, hnetwork, h⟩
    · exact absurd h (network?_ne_error hf _)
    have hready : IsReady s file := ⟨hread, _, hnetwork⟩
    rcases Outcome.bind_eq_error_iff.1 h with h | ⟨path, hpath, h⟩
    · rcases path?_eq_error_iff.1 h with ⟨rfl, huntextual⟩ | ⟨rfl, text, hpath, hlost⟩
      · exact .untextual hready huntextual
      · exact .home hready hpath hlost
    rcases Outcome.bind_eq_error_iff.1 h with h | ⟨ownerKey, -, h⟩
    · obtain ⟨rfl, hlong⟩ := (ownerKey?_eq_error_iff hf).1 h
      exact .ownerKey hready ⟨path, hpath⟩ hlong
    · cases h
  · intro h
    have hpath {file : List (String × Json)} (hready : IsReady s file)
        (hpath : path? s.homes (pathValue s file) = .error f) : load? s = .error f := by
      obtain ⟨hread, network, hnetwork⟩ := hready
      unfold load?
      rw [hread, Outcome.ok_bind, hnetwork, Outcome.ok_bind]
      exact Outcome.bind_eq_error_iff.2 (.inl hpath)
    cases h with
    | untextual hready huntextual =>
      exact hpath hready (path?_eq_error_iff.2 (.inl ⟨rfl, huntextual⟩))
    | home hready htext hlost =>
      exact hpath hready (path?_eq_error_iff.2 (.inr ⟨rfl, _, htext, hlost⟩))
    | ownerKey hready hread hlong =>
      obtain ⟨hmembers, network, hnetwork⟩ := hready
      obtain ⟨path, hread⟩ := hread
      unfold load?
      rw [hmembers, Outcome.ok_bind, hnetwork, Outcome.ok_bind]
      refine Outcome.bind_eq_error_iff.2 (.inr ⟨path, hread, ?_⟩)
      exact Outcome.bind_eq_error_iff.2 (.inl ((ownerKey?_eq_error_iff hf).2 ⟨rfl, hlong⟩))

end

end ViewSettings

/-! ## Both settings -/

theorem Endpoint.Breaks.not_isOfSettings {value : Json} {f : Failure} (h : Breaks value f) :
    ¬f.IsOfSettings := by
  cases h with
  | untextual _ => exact id
  | authority _ => exact id
  | port _ _ _ _ => exact id

theorem NodeSettings.Breaks.not_isOfSettings {s : Sources} {f : Failure} (h : Breaks s f) :
    ¬f.IsOfSettings := by
  cases h with
  | endpoint _ _ hbreaks => exact hbreaks.not_isOfSettings
  | portOfOverrides _ hbreaks => cases hbreaks <;> exact id
  | portOfFile _ _ hbreaks => cases hbreaks <;> exact id
  | timeout _ _ _ hbreaks => cases hbreaks <;> exact id

theorem ViewSettings.Breaks.not_isOfSettings {s : Sources} {f : Failure} (h : Breaks s f) :
    ¬f.IsOfSettings := by
  cases h with
  | untextual _ _ => exact id
  | home _ _ _ => exact id
  | ownerKey _ _ _ => exact id

/-- The settings of the node and those of views fail otherwise exactly in the ways in which they
break. -/
theorem Sources.fails_otherwise_iff (s : Sources) (f : Failure) :
    (NodeSettings.load? s = .error f ∧ ¬f.IsOfSettings ↔ NodeSettings.Breaks s f) ∧
      (ViewSettings.load? s = .error f ∧ ¬f.IsOfSettings ↔ ViewSettings.Breaks s f) := by
  constructor
  · constructor
    · exact fun ⟨h, hf⟩ => (NodeSettings.load?_eq_error_iff hf).1 h
    · intro h
      have hf := h.not_isOfSettings
      exact ⟨(NodeSettings.load?_eq_error_iff hf).2 h, hf⟩
  · constructor
    · exact fun ⟨h, hf⟩ => (ViewSettings.load?_eq_error_iff hf).1 h
    · intro h
      have hf := h.not_isOfSettings
      exact ⟨(ViewSettings.load?_eq_error_iff hf).2 h, hf⟩

/-- Settings do fail otherwise: with an integer for the endpoint in the file, and with an integer
for the path among the overrides. -/
theorem Sources.not_forall_isOfSettings :
    (¬∀ (s : Sources) (f : Failure), NodeSettings.load? s = .error f → f.IsOfSettings) ∧
      ¬∀ (s : Sources) (f : Failure), ViewSettings.load? s = .error f → f.IsOfSettings := by
  constructor
  · intro h
    exact h (ofParts.withContent (some (endpointFile (.integer 5)))) .wrongType rfl
  · intro h
    exact h { path := ⟨"", ["ordview.yaml"]⟩, overrides := [("index_path", .integer 5)] }
      .wrongType rfl

end InscriptionLedger
