import InscriptionLedger.Proofs.LowerCase
import InscriptionLedger.Proofs.NumeralText
import InscriptionLedger.Proofs.Outcome
import InscriptionLedger.Settings.NodeSettings

/-!
# URLs of endpoints

An endpoint is given as a URL, and calls are sent to a URL that is written from the settings. The
host that was read is in lower case, and nothing that delimits a URL is in it, apart from the colons
of an address between brackets. So the URL that is written tells the endpoint again if the host has
no colon and no bracket; it cannot be read if the host has one, since it is written without brackets
around it.

## Main definitions

* `Endpoint.IsHost`: hosts that URLs tell
* `Endpoint.completed`: an endpoint with the defaults for what it does not tell
* `Endpoint.hasPlainHost`: whether a host needs no brackets
* `Sources.GiveEndpoint`: sources that give an endpoint and nothing of it apart

## Main results

* `Endpoint.lowerHost_lowerHost`: a host in lower case is its own
* `Endpoint.of_ofText?_eq_ok`: the host and the port of an endpoint that is read
* `Endpoint.ofText?_written`, `Endpoint.ofText?_written_of_mem`: URLs that are written, read again
* `NodeSettings.load?_eq`: the settings where an endpoint is given
* `NodeSettings.read?_baseUrl`: the URL that calls are sent to, read again
-/

namespace InscriptionLedger

namespace Endpoint

open Text

/-! ## Characters of a host -/

/-- The characters that are dropped from a URL, or that end its authority or a user in it. -/
def nonHostChars : List Char := ['\t', '\r', '\n', '/', '?', '#', '@']

/-- Whether a character may be in the host of a URL. -/
def isHostChar (c : Char) : Bool :=
  !nonHostChars.contains c && !compoundDelimiters.contains c.toNat

theorem isHostChar_eq_true_iff {c : Char} :
    isHostChar c = true ↔ (c ≠ '\t' ∧ c ≠ '\r' ∧ c ≠ '\n') ∧ (c ≠ '/' ∧ c ≠ '?' ∧ c ≠ '#') ∧
      c ≠ '@' ∧ c.toNat ∉ compoundDelimiters := by
  simp [isHostChar, nonHostChars, and_assoc]

theorem isNoForm_of_isHostChar_eq_false {c : Char} (h : isHostChar c = false) :
    isNoForm c.toNat = true := by
  have hchars : (nonHostChars.all fun d => isNoForm d.toNat) = true := by decide +kernel
  have hcompound : (compoundDelimiters.all isNoForm) = true := by decide +kernel
  simp only [isHostChar, Bool.and_eq_false_iff, Bool.not_eq_false', List.contains_iff_mem] at h
  rcases h with h | h
  · exact List.all_eq_true.1 hchars c h
  · exact List.all_eq_true.1 hcompound c.toNat h

/-! ## Hosts in lower case -/

theorem toList_lowerHost (cs : List Char) :
    (lowerHost cs).toList =
      lowerFrom false (cs.takeWhile (· != '%')) ++ cs.dropWhile (· != '%') := by
  have hdrop : (cs.takeWhile (· != '%') ++ cs.dropWhile (· != '%')).drop
      (cs.takeWhile (· != '%')).length = cs.dropWhile (· != '%') := List.drop_left
  rw [List.takeWhile_append_dropWhile] at hdrop
  rw [lowerHost, String.toList_append, String.toList_ofList, lower, String.toList_ofList,
    String.toList_ofList, hdrop]

/-- A character that is no form is not in a host in lower case, unless it was there before. -/
theorem not_mem_lowerHost {x : Char} (hx : isNoForm x.toNat = true) {cs : List Char} (h : x ∉ cs) :
    x ∉ (lowerHost cs).toList := by
  rw [toList_lowerHost, List.mem_append]
  rintro (hmem | hmem)
  · exact not_mem_lowerFrom hx (fun hmem => h ((List.takeWhile_sublist _).subset hmem)) false hmem
  · exact h ((List.dropWhile_sublist _).subset hmem)

theorem lowerHost_ne_nil {cs : List Char} (h : cs ≠ []) : (lowerHost cs).toList ≠ [] := by
  rw [toList_lowerHost, ne_eq, List.append_eq_nil_iff]
  rintro ⟨hlower, hdrop⟩
  rw [← List.takeWhile_append_dropWhile (p := (· != '%')) (l := cs), hdrop, List.append_nil] at h
  exact lowerFrom_ne_nil h false hlower

/-- A host in lower case is its own. -/
theorem lowerHost_lowerHost (cs : List Char) : lowerHost (lowerHost cs).toList = lowerHost cs := by
  have hpercent : ∀ c ∈ lowerFrom false (cs.takeWhile (· != '%')), (c != '%') = true := by
    intro c hc
    have hnone : '%' ∉ cs.takeWhile (· != '%') := fun h => by simpa using List.mem_takeWhile_imp h
    have := not_mem_lowerFrom (by decide +kernel) hnone false
    rw [bne_iff_ne]
    rintro rfl
    exact this hc
  have hzone : (cs.dropWhile (· != '%')).takeWhile (· != '%') = [] :=
    List.takeWhile_eq_nil_iff.2 fun h => List.dropWhile_get_zero_not _ cs h
  rw [← String.toList_inj, toList_lowerHost (lowerHost cs).toList, toList_lowerHost cs,
    List.takeWhile_append_of_pos hpercent, List.dropWhile_append_of_pos hpercent, hzone,
    List.append_nil, lowerFrom_lowerFrom, List.dropWhile_idempotent]

/-! ## Hosts that URLs tell -/

/-- A host that a URL tells. -/
structure IsHost (cs : List Char) : Prop where
  nonempty : cs ≠ []
  lowered : lowerHost cs = String.ofList cs
  chars : ∀ c ∈ cs, isHostChar c = true
  brackets : '[' ∉ cs ∨ ']' ∉ cs

theorem isHost_lowerHost {cs : List Char} (hne : cs ≠ []) (hchars : ∀ c ∈ cs, isHostChar c = true)
    (hbrackets : '[' ∉ cs ∨ ']' ∉ cs) : IsHost (lowerHost cs).toList where
  nonempty := lowerHost_ne_nil hne
  lowered := by rw [lowerHost_lowerHost, String.ofList_toList]
  chars c hc := by
    by_contra h
    rw [Bool.not_eq_true] at h
    refine not_mem_lowerHost (isNoForm_of_isHostChar_eq_false h) (fun hmem => ?_) hc
    rw [hchars c hmem] at h
    cases h
  brackets := hbrackets.imp (not_mem_lowerHost (by decide +kernel))
    (not_mem_lowerHost (by decide +kernel))

theorem mem_clean {s : String} {c : Char} (h : c ∈ clean s) : c ≠ '\t' ∧ c ≠ '\r' ∧ c ≠ '\n' := by
  have := (List.mem_filter.1 h).2
  simpa [and_assoc] using this

theorem splitScheme_subset (cs : List Char) : (splitScheme cs).2 ⊆ cs := by
  unfold splitScheme
  split
  · next scheme rest h =>
    split
    · obtain ⟨sep, -, rfl, -⟩ := append_of_splitFirst? h
      exact fun c hc => List.mem_append_right scheme (List.mem_cons_of_mem sep hc)
    · exact List.Subset.refl cs
  · exact List.Subset.refl cs

theorem mem_authority {cs : List Char} {c : Char} (h : c ∈ authority cs) :
    c ∈ cs ∧ c ≠ '/' ∧ c ≠ '?' ∧ c ≠ '#' := by
  unfold authority at h
  split at h
  · next rest =>
    have hmem := (List.takeWhile_sublist _).subset h
    have hends := List.mem_takeWhile_imp h
    exact ⟨List.mem_cons_of_mem _ (List.mem_cons_of_mem _ hmem), by simpa [and_assoc] using hends⟩
  · cases h

theorem mem_hostInfo {cs : List Char} {c : Char} (h : c ∈ hostInfo cs) : c ∈ cs ∧ c ≠ '@' := by
  unfold hostInfo at h
  split at h
  · next before info hsplit =>
    obtain ⟨rfl, hnone⟩ := append_of_splitLast? hsplit
    refine ⟨List.mem_append_right _ (List.mem_cons_of_mem _ h), ?_⟩
    rintro rfl
    exact hnone h
  · next hsplit =>
    refine ⟨h, ?_⟩
    rintro rfl
    exact splitLast?_eq_none_iff.1 hsplit h

theorem mem_fst_cut {sep : Char} {cs : List Char} {c : Char} (h : c ∈ (cut sep cs).1) :
    c ∈ cs ∧ c ≠ sep := by
  unfold cut at h
  cases hsplit : splitFirst? (· == sep) cs with
  | none =>
    rw [hsplit] at h
    have := splitFirst?_eq_none_iff.1 hsplit c h
    exact ⟨h, by simpa using this⟩
  | some parts =>
    obtain ⟨before, after⟩ := parts
    rw [hsplit] at h
    obtain ⟨_, -, rfl, hbefore⟩ := append_of_splitFirst? hsplit
    exact ⟨List.mem_append_left _ h, by simpa using hbefore c h⟩

theorem cut_append {sep : Char} {before : List Char} (h : sep ∉ before) (after : List Char) :
    cut sep (before ++ sep :: after) = (before, after) := by
  have hbefore : ∀ c ∈ before, (c == sep) = false := by
    intro c hc
    rw [beq_eq_false_iff_ne]
    rintro rfl
    exact h hc
  rw [cut, splitFirst?_append hbefore (beq_self_eq_true sep), Option.getD_some]

/-- The host of an authority is a part of it, without the user and with brackets of one kind. -/
theorem fst_hostAndPort (cs : List Char) :
    (∀ c ∈ (hostAndPort cs).1, c ∈ hostInfo cs) ∧
      ('[' ∉ (hostAndPort cs).1 ∨ ']' ∉ (hostAndPort cs).1) := by
  unfold hostAndPort
  split
  · next before inside hsplit =>
    obtain ⟨sep, -, hinfo, -⟩ := append_of_splitFirst? hsplit
    constructor
    · intro c hc
      rw [hinfo]
      exact List.mem_append_right _ (List.mem_cons_of_mem _ (mem_fst_cut hc).1)
    · exact .inr fun h => (mem_fst_cut h).2 rfl
  · next hsplit =>
    refine ⟨fun c hc => (mem_fst_cut hc).1, .inl fun h => ?_⟩
    simpa using splitFirst?_eq_none_iff.1 hsplit '[' (mem_fst_cut h).1

/-! ## Endpoints that are read -/

theorem port?_eq_ok_some {cs : List Char} {port : Int} (h : port? cs = .ok (some port)) :
    ∃ n : Nat, n ≤ 65535 ∧ port = n := by
  unfold port? at h
  split at h
  · cases h
  · split at h
    · dsimp only at h
      split at h
      · next hle =>
        cases h
        exact ⟨_, hle, rfl⟩
      · cases h
    · cases h

theorem isHostChar_of_mem {s : String}
    (hgood : isGood (authority (splitScheme (clean s)).2) = true) {c : Char}
    (hc : c ∈ (hostAndPort (authority (splitScheme (clean s)).2)).1) :
    isHostChar c = true := by
  obtain ⟨hnetloc, huser⟩ := mem_hostInfo ((fst_hostAndPort _).1 c hc)
  obtain ⟨hrest, hends⟩ := mem_authority hnetloc
  have hkept := mem_clean (splitScheme_subset _ hrest)
  simp only [isGood, Bool.and_eq_true, Bool.not_eq_true', List.any_eq_false,
    List.contains_iff_mem] at hgood
  exact isHostChar_eq_true_iff.2 ⟨hkept, hends, huser, hgood.2 c hnetloc⟩

/-- What an endpoint that is read from a URL tells. -/
theorem of_ofText?_eq_ok {s : String} {e : Endpoint} (h : ofText? s = .ok e) :
    (∀ host, e.host = some host → IsHost host.toList) ∧
      ∀ port, e.port = some port → ∃ n : Nat, n ≤ 65535 ∧ port = n := by
  unfold ofText? at h
  dsimp only at h
  split at h
  · next hgood =>
    split at h
    · cases h
    · obtain ⟨port, hport, hreturn⟩ := Outcome.bind_eq_ok_iff.1 h
      obtain rfl := Except.ok.inj hreturn
      constructor
      · intro host hhost
        dsimp only at hhost
        split at hhost
        · cases hhost
        · next hne =>
          obtain rfl := Option.some.inj hhost
          exact isHost_lowerHost hne (fun c hc => isHostChar_of_mem hgood hc) (fst_hostAndPort _).2
      · intro value hvalue
        obtain rfl : port = some value := hvalue
        exact port?_eq_ok_some hport
  · cases h

theorem read?_text {s : String} (h : s ≠ "") : read? (.text s) = ofText? s := by
  have htruthy : (Json.text s).isTruthy = true := by simpa [Json.isTruthy] using h
  rw [read?, if_pos htruthy]
  rfl

theorem isHost_default : IsHost "127.0.0.1".toList where
  nonempty := by decide
  lowered := rfl
  chars := List.all_eq_true.1 rfl
  brackets := by decide

/-- An endpoint with the default host and port, and no security, for what it does not tell. -/
def completed (e : Endpoint) : Endpoint where
  host := some (e.host.getD "127.0.0.1")
  port := some (e.port.getD 8332)
  isSecure := some (e.isSecure.getD false)

/-- Whether the host of an endpoint needs no brackets around it and has none. -/
def hasPlainHost (e : Endpoint) : Bool :=
  (e.host.getD "127.0.0.1").toList.all fun c => c != ':' && c != '[' && c != ']'

theorem hasPlainHost_iff {e : Endpoint} :
    e.hasPlainHost = true ↔ ':' ∉ (e.host.getD "127.0.0.1").toList ∧
      '[' ∉ (e.host.getD "127.0.0.1").toList ∧ ']' ∉ (e.host.getD "127.0.0.1").toList := by
  simp only [hasPlainHost, List.all_eq_true, Bool.and_eq_true, bne_iff_ne]
  constructor
  · intro h
    exact ⟨fun hc => (h _ hc).1.1 rfl, fun hc => (h _ hc).1.2 rfl, fun hc => (h _ hc).2 rfl⟩
  · rintro ⟨hcolon, hopen, hclose⟩ c hc
    refine ⟨⟨?_, ?_⟩, ?_⟩ <;> rintro rfl <;> contradiction

/-- The host and the port that are told, or the default ones. -/
theorem of_read?_eq_ok {s : String} {e : Endpoint} (h : read? (.text s) = .ok e) :
    IsHost (e.host.getD "127.0.0.1").toList ∧ ∃ n : Nat, n ≤ 65535 ∧ e.port.getD 8332 = n := by
  have hread : (∀ host, e.host = some host → IsHost host.toList) ∧
      ∀ port, e.port = some port → ∃ n : Nat, n ≤ 65535 ∧ port = n := by
    by_cases hs : s = ""
    · -- An empty text gives no endpoint.
      rw [hs] at h
      cases h
      exact ⟨nofun, nofun⟩
    · rw [read?_text hs] at h
      exact of_ofText?_eq_ok h
  constructor
  · cases hhost : e.host with
    | none => exact isHost_default
    | some host => exact hread.1 host hhost
  · cases hport : e.port with
    | none => exact ⟨8332, by decide, rfl⟩
    | some port => exact hread.2 port hport

/-! ## URLs that are written -/

/-- The scheme that is written of an endpoint. -/
def schemeOf (isSecure : Bool) : List Char :=
  if isSecure then ['h', 't', 't', 'p', 's'] else ['h', 't', 't', 'p']

theorem schemeOf_beq (isSecure : Bool) : (schemeOf isSecure == "https".toList) = isSecure := by
  cases isSecure <;> rfl

theorem toList_scheme (isSecure : Bool) :
    (if isSecure then "https" else "http").toList = schemeOf isSecure := by
  cases isSecure <;> rfl

section

variable {s : String} {isSecure : Bool} {netloc : List Char}
  (hs : s.toList = schemeOf isSecure ++ ':' :: '/' :: '/' :: netloc)
  (hnetloc : ∀ c ∈ netloc, isHostChar c = true)

include hs hnetloc

/-- Nothing of such a URL is dropped. -/
theorem clean_eq : clean s = s.toList := by
  have hkept : ∀ c ∈ s.toList, c ≠ '\t' ∧ c ≠ '\r' ∧ c ≠ '\n' := by
    have hscheme : ∀ c ∈ schemeOf isSecure, c ≠ '\t' ∧ c ≠ '\r' ∧ c ≠ '\n' := by
      cases isSecure <;> simp [schemeOf]
    intro c hc
    simp only [hs, List.mem_append, List.mem_cons] at hc
    rcases hc with hc | rfl | rfl | rfl | hc
    · exact hscheme c hc
    · decide
    · decide
    · decide
    · exact (isHostChar_eq_true_iff.1 (hnetloc c hc)).1
  have hfront : s.toList.dropWhile (fun c => c.toNat ≤ 0x20) = s.toList := by
    rw [hs]
    cases isSecure <;> rfl
  rw [clean, hfront, List.filter_eq_self]
  simpa [and_assoc] using hkept

theorem splitScheme_clean :
    splitScheme (clean s) = (some (schemeOf isSecure), '/' :: '/' :: netloc) := by
  have hcolon : ∀ c ∈ schemeOf isSecure, (c == ':') = false := by
    cases isSecure <;> simp [schemeOf]
  have hscheme : ((schemeOf isSecure).head?.any Char.isAlpha &&
      (schemeOf isSecure).all isSchemeChar) = true := by cases isSecure <;> rfl
  have hlower : (schemeOf isSecure).map Char.toLower = schemeOf isSecure := by
    cases isSecure <;> rfl
  rw [clean_eq hs hnetloc, hs, splitScheme, splitFirst?_append hcolon (beq_self_eq_true ':')]
  simp only [hscheme, if_true, hlower]

omit hs in
theorem authority_eq : authority ('/' :: '/' :: netloc) = netloc := by
  rw [authority, List.takeWhile_eq_self_iff]
  intro c hc
  obtain ⟨-, hends, -⟩ := isHostChar_eq_true_iff.1 (hnetloc c hc)
  simpa [and_assoc] using hends

theorem ofText?_eq_of_isGood (hgood : isGood netloc = true) {host portText : List Char}
    (hparts : hostAndPort netloc = (host, portText)) :
    ofText? s = (port? portText).map fun port =>
      ⟨if host = [] then none else some (lowerHost host), port, some isSecure⟩ := by
  unfold ofText?
  simp only [splitScheme_clean hs hnetloc, authority_eq hnetloc, hgood, hparts, if_true,
    Option.isNone_some, Bool.false_eq_true, false_and, if_false, Option.map_some, schemeOf_beq]
  cases port? portText <;> rfl

theorem ofText?_eq_of_not_isGood (hbad : isGood netloc = false) :
    ofText? s = .error .unreadable := by
  unfold ofText?
  simp only [splitScheme_clean hs hnetloc, authority_eq hnetloc, hbad, Bool.false_eq_true, if_false]

end

/-! ### Ports that are written -/

theorem port?_of_not_isDigit {cs : List Char} {c : Char} (hc : c ∈ cs) (h : c.isDigit = false) :
    port? cs = .error .unreadable := by
  have hdigits : cs.all Char.isDigit = false := List.all_eq_false.2 ⟨c, hc, by simp [h]⟩
  rw [port?, if_neg (List.ne_nil_of_mem hc), hdigits]
  rfl

theorem forall_mem_natChars {P : Char → Prop} (h : ∀ m : Fin 10, P (Numeral.digitChar m))
    (n : Nat) : ∀ c ∈ Numeral.natChars n, P c := by
  intro c hc
  obtain ⟨d, hd, rfl⟩ := List.mem_map.1 hc
  exact h ⟨d, Numeral.natDigits_lt hd⟩

theorem port?_natChars {n : Nat} (h : n ≤ 65535) : port? (Numeral.natChars n) = .ok (some n) := by
  have hdigits : (Numeral.natChars n).all Char.isDigit = true :=
    List.all_eq_true.2 (forall_mem_natChars (by decide) n)
  have hshort : (Numeral.natChars n).length ≤ Numeral.maxDigits := by
    have : Numeral.digitCount n ≤ 5 := Numeral.digitCount_le (by omega) (by omega)
    rw [Numeral.natChars, List.length_map, Numeral.maxDigits]
    exact this.trans (by omega)
  have hvalue : (Numeral.natChars n).map (fun c => c.toNat - 0x30) = Numeral.natDigits n := by
    have hdigit : ∀ m : Fin 10, (Numeral.digitChar m).toNat - 0x30 = m.val := by decide
    rw [Numeral.natChars, List.map_map]
    rw [List.map_congr_left fun d hd => hdigit ⟨d, Numeral.natDigits_lt hd⟩]
    exact List.map_id _
  unfold port?
  rw [if_neg (Numeral.natChars_ne_nil n)]
  simp [hdigits, hshort, hvalue, h]

/-! ### Hosts that are written -/

/-- The authority that is written of a host and a port. -/
def writtenAuthority (host : List Char) (port : Nat) : List Char :=
  host ++ ':' :: Numeral.natChars port

section

variable {host : List Char} (h : IsHost host) (port : Nat)

include h

theorem isHostChar_of_mem_written : ∀ c ∈ writtenAuthority host port, isHostChar c = true := by
  have hport := forall_mem_natChars (P := fun c => isHostChar c = true) (by decide) port
  intro c hc
  rcases List.mem_append.1 hc with hc | hc
  · exact h.chars c hc
  · rcases List.mem_cons.1 hc with rfl | hc
    · decide
    · exact hport c hc

omit h in
/-- Behind the host there is no bracket. -/
theorem contains_bracket {c : Char} (hc : c = '[' ∨ c = ']') :
    (writtenAuthority host port).contains c = host.contains c := by
  have hport : c ∉ Numeral.natChars port := by
    intro hmem
    rcases hc with rfl | rfl
    · exact forall_mem_natChars (P := (· ≠ '[')) (by decide) port _ hmem rfl
    · exact forall_mem_natChars (P := (· ≠ ']')) (by decide) port _ hmem rfl
  have hcolon : c ≠ ':' := by rcases hc with rfl | rfl <;> decide
  rw [Bool.eq_iff_iff]
  simp [writtenAuthority, hport, hcolon]

theorem isGood_written :
    isGood (writtenAuthority host port) = true ↔ '[' ∉ host ∧ ']' ∉ host := by
  have hcompound : ((writtenAuthority host port).any
      fun c => compoundDelimiters.contains c.toNat) = false := by
    rw [List.any_eq_false]
    intro c hc
    have := (isHostChar_eq_true_iff.1 (isHostChar_of_mem_written h port c hc)).2.2.2
    simpa using this
  rw [isGood, hcompound, hasGoodBrackets, contains_bracket port (.inl rfl),
    contains_bracket port (.inr rfl)]
  -- A bracket of one kind is not in order, since there is none of the other.
  rcases h.brackets with hb | hb <;> simp [hb]

theorem hostInfo_written :
    hostInfo (writtenAuthority host port) = writtenAuthority host port := by
  have huser : '@' ∉ writtenAuthority host port := fun hc =>
    (isHostChar_eq_true_iff.1 (isHostChar_of_mem_written h port _ hc)).2.2.1 rfl
  rw [hostInfo, splitLast?_eq_none_iff.2 huser]

/-- Without brackets the host ends at its first colon, which may be its own. -/
theorem hostAndPort_written (hbracket : '[' ∉ host) :
    hostAndPort (writtenAuthority host port) = cut ':' (writtenAuthority host port) := by
  have hnone : splitFirst? (· == '[') (writtenAuthority host port) = none := by
    refine splitFirst?_eq_none_iff.2 fun c hc => ?_
    rw [beq_eq_false_iff_ne]
    rintro rfl
    rw [← List.contains_iff_mem, contains_bracket port (.inl rfl), List.contains_iff_mem] at hc
    exact hbracket hc
  rw [hostAndPort, hostInfo_written h port, hnone]

variable {port} {s : String} {isSecure : Bool}
  (hs : s.toList = schemeOf isSecure ++ ':' :: '/' :: '/' :: writtenAuthority host port)

include hs

/-- A URL that is written of a host and a port tells them, if the host has neither a colon nor a
bracket. -/
theorem ofText?_written (hport : port ≤ 65535) (hcolon : ':' ∉ host) (hopen : '[' ∉ host)
    (hclose : ']' ∉ host) :
    ofText? s = .ok ⟨some (String.ofList host), some port, some isSecure⟩ := by
  have hparts : hostAndPort (writtenAuthority host port) = (host, Numeral.natChars port) := by
    rw [hostAndPort_written h port hopen, writtenAuthority, cut_append hcolon]
  rw [ofText?_eq_of_isGood hs (isHostChar_of_mem_written h port)
    ((isGood_written h port).2 ⟨hopen, hclose⟩) hparts, port?_natChars hport, if_neg h.nonempty,
    h.lowered]
  rfl

/-- It is not read if the host has a colon or a bracket. -/
theorem ofText?_written_of_mem (hmem : ':' ∈ host ∨ '[' ∈ host ∨ ']' ∈ host) :
    ofText? s = .error .unreadable := by
  have hchars := isHostChar_of_mem_written h port
  by_cases hgood : isGood (writtenAuthority host port) = true
  · obtain ⟨hopen, hclose⟩ := (isGood_written h port).1 hgood
    have hcolon : ':' ∈ host := by simpa [hopen, hclose] using hmem
    obtain ⟨before, after, rfl, hbefore⟩ := List.eq_append_cons_of_mem hcolon
    have hparts : hostAndPort (writtenAuthority (before ++ ':' :: after) port) =
        (before, after ++ ':' :: Numeral.natChars port) := by
      rw [hostAndPort_written h port hopen, writtenAuthority, List.append_assoc, List.cons_append,
        cut_append hbefore]
    -- What follows the first colon is no port, since the colon before the port is in it.
    have hnoPort : port? (after ++ ':' :: Numeral.natChars port) = .error .unreadable :=
      port?_of_not_isDigit (List.mem_append_right after List.mem_cons_self) (by decide)
    rw [ofText?_eq_of_isGood hs hchars hgood hparts, hnoPort]
    rfl
  · exact ofText?_eq_of_not_isGood hs hchars (by simpa using hgood)

end

end Endpoint

/-! ## Settings of an endpoint -/

/-- Sources that give the endpoint as a text, and no host, port or scheme apart. -/
structure Sources.GiveEndpoint (s : Sources) (url : String) (file : List (String × Json)) :
    Prop where
  isRead : s.members? "rpc" = .ok file
  endpoint : firstGiven [s.override "endpoint",
    Sources.presentOr (s.nodeVariable "ENDPOINT") (s.nodeVariable "URL"),
    Json.member file "endpoint"] = .text url
  overrides : ∀ name ∈ ["host", "port", "use_https"], s.override name = .null
  environment : ∀ name ∈ ["HOST", "PORT", "USE_HTTPS"], s.nodeVariable name = .null
  members : ∀ name ∈ ["host", "port", "use_https"], Json.member file name = .null

namespace NodeSettings

section

variable {s : Sources} {url : String} {file : List (String × Json)} (hs : s.GiveEndpoint url file)

include hs

/-- Where an endpoint is given, the host, the port and the scheme are taken from it. -/
theorem load?_eq :
    load? s = do
      let e ← Endpoint.read? (.text url)
      let user := firstGiven [s.override "user", s.nodeVariable "USER", Json.member file "user"]
      let password :=
        firstGiven [s.override "password", s.nodeVariable "PASSWORD", Json.member file "password"]
      if !user.isTruthy || !password.isTruthy then throw (.settings .credentials)
      let timeout ← timeout? (firstGiven [s.override "timeout", s.nodeVariable "TIMEOUT",
        Json.member file "timeout", .integer 30])
      return {
        user, password, timeout
        host := .text (e.host.getD "127.0.0.1")
        port := e.port.getD 8332
        isSecure := e.isSecure.getD false } := by
  have hoverrides := hs.overrides
  have henvironment := hs.environment
  have hmembers := hs.members
  simp only [List.forall_mem_cons] at hoverrides henvironment hmembers
  obtain ⟨hhost, hport, hhttps, -⟩ := hoverrides
  obtain ⟨hhost', hport', hhttps', -⟩ := henvironment
  obtain ⟨hhost'', hport'', hhttps'', -⟩ := hmembers
  have hhosts (e : Endpoint) : firstGiven [.null, Json.ofOption .text e.host, .null, .null,
      .text "127.0.0.1"] = .text (e.host.getD "127.0.0.1") := by cases e.host <;> rfl
  have hports (e : Endpoint) : (none <|> e.port <|> none <|> none) = e.port := by
    cases e.port <;> rfl
  have hschemes (e : Endpoint) : (none <|> e.isSecure <|> none <|> none) = e.isSecure := by
    cases e.isSecure <;> rfl
  unfold load?
  simp only [hs.isRead, Outcome.ok_bind, port?, switch?, hs.endpoint, hhost, hport, hhttps, hhost',
    hport', hhttps', hhost'', hport'', hhttps'', hhosts, hports, hschemes]

theorem of_load?_eq_ok {settings : NodeSettings} (h : load? s = .ok settings) :
    ∃ e, Endpoint.read? (.text url) = .ok e ∧ settings.host = .text (e.host.getD "127.0.0.1") ∧
      settings.port = e.port.getD 8332 ∧ settings.isSecure = e.isSecure.getD false := by
  rw [load?_eq hs] at h
  obtain ⟨e, he, h⟩ := Outcome.bind_eq_ok_iff.1 h
  refine ⟨e, he, ?_⟩
  dsimp only at h
  split at h
  · cases h
  · obtain ⟨timeout, -, hreturn⟩ := Outcome.bind_eq_ok_iff.1 h
    obtain rfl := Except.ok.inj hreturn
    exact ⟨rfl, rfl, rfl⟩

end

theorem exists_baseUrl {settings : NodeSettings} {host : String} {port : Nat}
    (hhost : settings.host = .text host) (hport : settings.port = port) (hle : port ≤ 65535) :
    ∃ text, settings.baseUrl = .ok text ∧
      text.toList = Endpoint.schemeOf settings.isSecure ++ ':' :: '/' :: '/' ::
        Endpoint.writtenAuthority host.toList port := by
  have hshort : Numeral.isShort settings.port = true := by
    have hdigits : Numeral.digitCount port ≤ 5 := Numeral.digitCount_le (by omega) (by omega)
    rw [hport, Numeral.isShort_iff, Int.natAbs_natCast]
    exact hdigits.trans (by decide)
  refine ⟨_, by rw [baseUrl, hhost, Json.show?_text, hshort]; rfl, ?_⟩
  simp only [hport, Numeral.write, Numeral.intChars_natCast, String.toList_append,
    Endpoint.toList_scheme, String.toList_ofList, Endpoint.writtenAuthority]
  simp

/-- Where an endpoint is given, the URL that calls are sent to tells the same endpoint, completed
with the defaults, if its host is plain. If not, that URL cannot be read: no brackets are written
around the host. -/
theorem read?_baseUrl {s : Sources} {url : String} {file : List (String × Json)}
    (hs : s.GiveEndpoint url file) {settings : NodeSettings} (h : load? s = .ok settings) :
    ∃ e, Endpoint.read? (.text url) = .ok e ∧ settings.host = .text (e.host.getD "127.0.0.1") ∧
      settings.port = e.port.getD 8332 ∧ settings.isSecure = e.isSecure.getD false ∧
      ∃ text, settings.baseUrl = .ok text ∧ Endpoint.read? (.text text) =
        if e.hasPlainHost then .ok e.completed else .error .unreadable := by
  obtain ⟨e, he, hhost, hport, hsecure⟩ := of_load?_eq_ok hs h
  refine ⟨e, he, hhost, hport, hsecure, ?_⟩
  obtain ⟨hishost, n, hn, hportn⟩ := Endpoint.of_read?_eq_ok he
  obtain ⟨text, htext, hurl⟩ := exists_baseUrl hhost (hport.trans hportn) hn
  refine ⟨text, htext, ?_⟩
  have hne : text ≠ "" := by
    intro hempty
    rw [hempty] at hurl
    exact absurd hurl.symm (by simp)
  rw [Endpoint.read?_text hne]
  split
  · next hplain =>
    obtain ⟨hcolon, hopen, hclose⟩ := Endpoint.hasPlainHost_iff.1 hplain
    rw [Endpoint.ofText?_written hishost hurl hn hcolon hopen hclose, Endpoint.completed, hportn,
      hsecure, String.ofList_toList]
  · next hmem =>
    rw [Endpoint.hasPlainHost_iff] at hmem
    exact Endpoint.ofText?_written_of_mem hishost hurl (by tauto)

end NodeSettings

/-- Sources of which the environment alone gives something: credentials and an endpoint. -/
def Sources.ofEndpoint (url : String) : Sources where
  path := ⟨"", ["ordview.yaml"]⟩
  environment := [("BTC_RPC_USER", "u"), ("BTC_RPC_PASSWORD", "p"), ("BTC_RPC_ENDPOINT", url)]

theorem Sources.giveEndpoint_ofEndpoint {url : String} (h : url ≠ "") :
    (ofEndpoint url).GiveEndpoint url [] where
  isRead := rfl
  endpoint := by
    simp [ofEndpoint, nodeVariable, ofEnvironment, Keyed.get?, Json.ofOption, presentOr, override,
      Json.member, firstGiven, Json.isTruthy, h]
  overrides := by
    simp only [List.forall_mem_cons, List.not_mem_nil, false_imp_iff, implies_true, and_true]
    exact ⟨rfl, rfl, rfl⟩
  environment := by
    simp only [List.forall_mem_cons, List.not_mem_nil, false_imp_iff, implies_true, and_true]
    exact ⟨rfl, rfl, rfl⟩
  members := by
    simp only [List.forall_mem_cons, List.not_mem_nil, false_imp_iff, implies_true, and_true]
    exact ⟨rfl, rfl, rfl⟩

namespace NodeSettings

theorem load?_ofEndpoint {url : String} (h : url ≠ "") {e : Endpoint}
    (he : Endpoint.read? (.text url) = .ok e) :
    load? (Sources.ofEndpoint url) = .ok ⟨.text "u", .text "p", .text (e.host.getD "127.0.0.1"),
      e.port.getD 8332, e.isSecure.getD false, .ofInt 30⟩ := by
  rw [load?_eq (Sources.giveEndpoint_ofEndpoint h), he]
  rfl

/-- A URL with a user, capitals, a port with a leading zero and a path. -/
theorem read?_baseUrl_user :
    let url := " HTTPS://User:p@Node.Example:08/wallet?a#b"
    ∃ settings, load? (Sources.ofEndpoint url) = .ok settings ∧
      settings.baseUrl = .ok "https://node.example:8" ∧
      Endpoint.read? (.text "https://node.example:8") =
        .ok ⟨some "node.example", some 8, some true⟩ := by
  intro url
  have hread : Endpoint.read? (.text url) = .ok ⟨some "node.example", some 8, some true⟩ :=
    Outcome.toOption_eq_some_iff.1 (by decide +kernel)
  have hne : url ≠ "" := by decide
  have hload := load?_ofEndpoint hne hread
  have hurl : baseUrl ⟨.text "u", .text "p", .text "node.example", 8, true, .ofInt 30⟩ =
      .ok "https://node.example:8" := Outcome.toOption_eq_some_iff.1 (by decide +kernel)
  obtain ⟨e, he, -, -, -, text, htext, hwritten⟩ :=
    read?_baseUrl (Sources.giveEndpoint_ofEndpoint hne) hload
  obtain rfl := Except.ok.inj (hread.symm.trans he)
  obtain rfl := Except.ok.inj (hurl.symm.trans htext)
  exact ⟨_, hload, hurl, hwritten⟩

/-- An address between brackets: the URL that is written of it cannot be read. -/
theorem not_forall_read?_baseUrl :
    ¬∀ (s : Sources) (url : String) (file : List (String × Json)) (settings : NodeSettings)
      (e : Endpoint), s.GiveEndpoint url file → load? s = .ok settings →
        Endpoint.read? (.text url) = .ok e →
          ∃ text, settings.baseUrl = .ok text ∧ Endpoint.read? (.text text) = .ok e.completed := by
  intro h
  have hread : Endpoint.read? (.text "http://[::1]:8332") =
      .ok ⟨some "::1", some 8332, some false⟩ := Outcome.toOption_eq_some_iff.1 (by decide +kernel)
  have hne : "http://[::1]:8332" ≠ "" := by decide
  have hload := load?_ofEndpoint hne hread
  obtain ⟨text, htext, hsame⟩ := h _ _ _ _ _ (Sources.giveEndpoint_ofEndpoint hne) hload hread
  have hurl : baseUrl ⟨.text "u", .text "p", .text "::1", 8332, false, .ofInt 30⟩ =
      .ok "http://::1:8332" := Outcome.toOption_eq_some_iff.1 (by decide +kernel)
  have hwritten : Endpoint.read? (.text "http://::1:8332") = .error .unreadable := by rfl
  obtain rfl := Except.ok.inj (hurl.symm.trans htext)
  rw [hwritten] at hsame
  cases hsame

end NodeSettings

end InscriptionLedger
