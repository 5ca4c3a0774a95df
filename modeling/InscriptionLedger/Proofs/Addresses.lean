import InscriptionLedger.Address.Template
import InscriptionLedger.Proofs.Base58Reading
import InscriptionLedger.Proofs.BitStream
import InscriptionLedger.Text.Split

/-!
# Addresses name scripts

An address names one script, and is that of an output on the main network or on networks for tests,
never of both. The text of a witness program tells its human-readable part, before the last
separator, and its symbols, which tell the version and the program. A checked text tells a version
byte, which is that of a template and of a kind of network, and the hash. The two forms share no
text: by the number of its first byte a checked text starts with other digits than a human-readable
part does.

## Main definitions

* `Bech32.symbolValues hrp version program`: the values of the symbols behind the separator
* `Template.leads network t`: the characters that addresses of a template start with
* `Template.kindOfLead c`: the kind of template that a first character tells

## Main results

* `Bech32.encode_inj`: the text of a witness program tells all that it is made of
* `Template.head?_address`: the first character of an address
* `Template.address_inj`: an address tells the template and the kind of network
* `Network.eq_of_address?_eq`: an address names one script and one kind of network
-/

namespace InscriptionLedger

/-! ## Witness programs -/

namespace Bech32

theorem idxOf_symbol {v : Nat} (h : v < 32) : alphabet.idxOf (symbol v) = v := by
  have all : ∀ v : Fin 32, alphabet.idxOf (symbol (v.val : Int)) = v.val := by decide
  exact all ⟨v, h⟩

theorem symbol_ne_separator {v : Nat} (h : v < 32) : symbol v ≠ '1' := by
  have all : ∀ v : Fin 32, symbol (v.val : Int) ≠ '1' := by decide
  exact all ⟨v, h⟩

theorem length_checksum (hrp : String) (data : List Int) (constant : Nat) :
    (checksum hrp data constant).length = 6 := by
  simp [checksum]

theorem checksum_lt {hrp : String} {data : List Int} {constant v : Nat}
    (h : v ∈ checksum hrp data constant) : v < 32 := by
  obtain ⟨i, -, rfl⟩ := List.mem_map.1 h
  omega

/-- The values of the symbols behind the separator: the version, the groups of the program, and the
checksum. -/
def symbolValues (hrp : String) (version : Nat) (program : Bytes) : List Nat :=
  (version :: Regroup.regroup 8 5 ((program.map UInt8.toNat).map Int.ofNat)) ++
    checksum hrp (programSymbols version program)
      (if 1 ≤ (version : Int) then modifiedConstant else firstConstant)

theorem symbolValues_lt {hrp : String} {version : Nat} (hversion : version < 32) {program : Bytes}
    {v : Nat} (h : v ∈ symbolValues hrp version program) : v < 32 := by
  rcases List.mem_append.1 h with h | h
  · rcases List.mem_cons.1 h with rfl | h
    · exact hversion
    · exact Regroup.regroupFrom_lt h
  · exact checksum_lt h

theorem toList_encode (hrp : String) (version : Nat) (program : Bytes) :
    (encode hrp version program).toList =
      hrp.toList ++ '1' :: (symbolValues hrp version program).map fun v : Nat => symbol v := by
  have hprogram : (program.map fun b => (b.toNat : Int)) =
      (program.map UInt8.toNat).map Int.ofNat := List.map_map.symm
  have hseparator : "1".toList = ['1'] := rfl
  simp only [encode, symbolValues, programSymbols, hprogram, String.toList_append, hseparator,
    String.toList_ofList, List.map_append, List.map_cons, List.map_map, List.append_assoc,
    List.cons_append, List.nil_append]
  rfl

/-- No symbol is a separator, so that the last separator stands behind the human-readable part. -/
theorem splitLast?_encode (hrp : String) {version : Nat} (hversion : version < 32)
    (program : Bytes) :
    Text.splitLast? '1' (encode hrp version program).toList =
      some (hrp.toList, (symbolValues hrp version program).map fun v : Nat => symbol v) := by
  rw [toList_encode]
  apply Text.splitLast?_append
  intro hmem
  obtain ⟨v, hv, hsymbol⟩ := List.mem_map.1 hmem
  exact symbol_ne_separator (symbolValues_lt hversion hv) hsymbol

/-- The symbols tell their values. -/
theorem map_idxOf_symbols {values : List Nat} (h : ∀ v ∈ values, v < 32) :
    (values.map fun v : Nat => symbol v).map alphabet.idxOf = values := by
  rw [List.map_map]
  exact (List.map_congr_left fun v hv => idxOf_symbol (h v hv)).trans (List.map_id values)

/-- The values of the symbols tell the version and the program. -/
theorem eq_of_symbolValues_eq {hrp : String} {version version' : Nat} {program program' : Bytes}
    (h : symbolValues hrp version program = symbolValues hrp version' program') :
    version = version' ∧ program = program' := by
  -- The checksum is of one size, so that it can be cut off, whatever it is.
  have hvalues := (List.append_inj' h (by rw [length_checksum, length_checksum])).1
  rw [List.cons.injEq] at hvalues
  have hbytes (bytes : Bytes) : ∀ v ∈ bytes.map UInt8.toNat, v < 2 ^ 8 := by
    intro v hv
    obtain ⟨b, -, rfl⟩ := List.mem_map.1 hv
    exact b.toNat_lt
  have hprogram := Regroup.regroup_injective (by decide) (by decide) (hbytes program)
    (hbytes program') hvalues.2
  exact ⟨hvalues.1, List.map_injective_iff.2 (fun _ _ => UInt8.toNat_inj.1) hprogram⟩

/-- The text of a witness program tells the human-readable part, the version and the program. -/
theorem encode_inj {hrp hrp' : String} {version version' : Nat} (hversion : version < 32)
    (hversion' : version' < 32) {program program' : Bytes} :
    encode hrp version program = encode hrp' version' program' ↔
      hrp = hrp' ∧ version = version' ∧ program = program' := by
  constructor
  · intro h
    have hparts := splitLast?_encode hrp hversion program
    rw [h, splitLast?_encode hrp' hversion' program', Option.some.injEq, Prod.mk.injEq] at hparts
    obtain rfl := String.toList_inj.1 hparts.1
    have hvalues := congrArg (List.map alphabet.idxOf) hparts.2
    rw [map_idxOf_symbols fun _ => symbolValues_lt hversion',
      map_idxOf_symbols fun _ => symbolValues_lt hversion] at hvalues
    exact ⟨rfl, eq_of_symbolValues_eq hvalues.symm⟩
  · rintro ⟨rfl, rfl, rfl⟩
    rfl

end Bech32

/-! ## Networks -/

namespace Network

theorem hrp_eq_iff {m n : Network} (h : m.hrp = n.hrp) : m = .mainnet ↔ n = .mainnet := by
  revert h
  cases m <;> cases n <;> decide

theorem publicKeyHashVersion_eq_iff {m n : Network} :
    m.publicKeyHashVersion = n.publicKeyHashVersion ↔ (m = .mainnet ↔ n = .mainnet) := by
  cases m <;> cases n <;> decide

theorem scriptHashVersion_eq_iff {m n : Network} :
    m.scriptHashVersion = n.scriptHashVersion ↔ (m = .mainnet ↔ n = .mainnet) := by
  cases m <;> cases n <;> decide

end Network

/-! ## First characters -/

namespace Template

/-- The characters that addresses of a template start with. -/
def leads (network : Network) : Template → List Char
  | publicKeyHash _ => if network = .mainnet then ['1'] else ['m', 'n']
  | scriptHash _ => if network = .mainnet then ['3'] else ['2']
  | witness _ _ => if network = .mainnet ∨ network = .regtest then ['b'] else ['t']

/-- The number of the version byte and the size of the payload fix the first digit. -/
theorem head?_publicKeyHash {hash : Bytes} (h : hash.length = 20) (network : Network) :
    ∃ c ∈ (publicKeyHash hash).leads network,
      ((publicKeyHash hash).address network).toList.head? = some c := by
  by_cases hmain : network = .mainnet
  · subst hmain
    exact ⟨'1', List.mem_singleton_self _, Base58.head?_encode_zero _⟩
  · have hversion : network.publicKeyHashVersion = 0x6F := by
      revert hmain
      cases network <;> decide
    have hlow : 44 * 58 ^ 33 ≤ (0x6F : UInt8).toNat * 256 ^ 24 := by decide
    have hhigh : ((0x6F : UInt8).toNat + 1) * 256 ^ 24 ≤ 46 * 58 ^ 33 := by decide
    obtain ⟨d, hd, hd', hhead⟩ := Base58.head?_checkEncode h (by decide) (by decide) hlow hhigh
    refine ⟨Base58.digit d, ?_, by rw [address, hversion, hhead]⟩
    rw [leads, if_neg hmain]
    rcases (by omega : d = 44 ∨ d = 45) with rfl | rfl <;> decide

theorem head?_scriptHash {hash : Bytes} (h : hash.length = 20) (network : Network) :
    ∃ c ∈ (scriptHash hash).leads network,
      ((scriptHash hash).address network).toList.head? = some c := by
  by_cases hmain : network = .mainnet
  · subst hmain
    have hlow : 2 * 58 ^ 33 ≤ (0x05 : UInt8).toNat * 256 ^ 24 := by decide
    have hhigh : ((0x05 : UInt8).toNat + 1) * 256 ^ 24 ≤ 3 * 58 ^ 33 := by decide
    obtain ⟨d, hd, hd', hhead⟩ := Base58.head?_checkEncode h (by decide) (by decide) hlow hhigh
    obtain rfl : d = 2 := by omega
    exact ⟨'3', List.mem_singleton_self _, hhead⟩
  · have hversion : network.scriptHashVersion = 0xC4 := by
      revert hmain
      cases network <;> decide
    have hlow : 1 * 58 ^ 34 ≤ (0xC4 : UInt8).toNat * 256 ^ 24 := by decide
    have hhigh : ((0xC4 : UInt8).toNat + 1) * 256 ^ 24 ≤ 2 * 58 ^ 34 := by decide
    obtain ⟨d, hd, hd', hhead⟩ := Base58.head?_checkEncode h (by decide) (by decide) hlow hhigh
    obtain rfl : d = 1 := by omega
    rw [leads, if_neg hmain, address, hversion, hhead]
    exact ⟨'2', List.mem_singleton_self _, rfl⟩

theorem head?_witness (version : Nat) (program : Bytes) (network : Network) :
    ∃ c ∈ (witness version program).leads network,
      ((witness version program).address network).toList.head? = some c := by
  rw [address, Bech32.toList_encode]
  cases network with
  | mainnet => exact ⟨'b', List.mem_singleton_self _, rfl⟩
  | testnet => exact ⟨'t', List.mem_singleton_self _, rfl⟩
  | signet => exact ⟨'t', List.mem_singleton_self _, rfl⟩
  | regtest => exact ⟨'b', List.mem_singleton_self _, rfl⟩

/-- The address of a template starts with one of its characters. -/
theorem head?_address {t : Template} (h : t.isStandard = true) (network : Network) :
    ∃ c ∈ t.leads network, (t.address network).toList.head? = some c := by
  cases t with
  | publicKeyHash hash => exact head?_publicKeyHash (beq_iff_eq.1 h) network
  | scriptHash hash => exact head?_scriptHash (beq_iff_eq.1 h) network
  | witness version program => exact head?_witness version program network

/-- The kind of template that a first character tells. -/
def kindOfLead : Char → Nat
  | '1' | 'm' | 'n' => 0
  | '2' | '3' => 1
  | _ => 2

/-- A first character tells the kind of its template, on any network. -/
theorem ctorIdx_eq_kindOfLead {t : Template} {network : Network} {c : Char}
    (h : c ∈ t.leads network) : t.ctorIdx = kindOfLead c := by
  have hpublic : ∀ c ∈ ['1', 'm', 'n'], 0 = kindOfLead c := by simp [kindOfLead]
  have hscript : ∀ c ∈ ['2', '3'], 1 = kindOfLead c := by simp [kindOfLead]
  have hwitness : ∀ c ∈ ['b', 't'], 2 = kindOfLead c := by simp [kindOfLead]
  cases t with
  | publicKeyHash hash =>
    apply hpublic
    revert h
    cases network <;> simp +contextual [leads]
  | scriptHash hash =>
    apply hscript
    revert h
    cases network <;> simp +contextual [leads]
  | witness version program =>
    apply hwitness
    revert h
    cases network <;> simp +contextual [leads]

/-- Templates with one address are of one kind. -/
theorem ctorIdx_eq_of_address_eq {t u : Template} (ht : t.isStandard = true)
    (hu : u.isStandard = true) {m n : Network} (h : t.address m = u.address n) :
    t.ctorIdx = u.ctorIdx := by
  obtain ⟨c, hc, hhead⟩ := head?_address ht m
  obtain ⟨d, hd, hhead'⟩ := head?_address hu n
  rw [h, hhead', Option.some.injEq] at hhead
  rw [ctorIdx_eq_kindOfLead hc, ctorIdx_eq_kindOfLead hd, hhead]

theorem version_lt_of_isStandard {version : Nat} {program : Bytes}
    (h : (witness version program).isStandard = true) : version < 32 := by
  simp only [isStandard, Bool.and_eq_true, decide_eq_true_eq] at h
  omega

/-- An address tells the template and the kind of network. -/
theorem address_inj {t u : Template} (ht : t.isStandard = true) (hu : u.isStandard = true)
    {m n : Network} (h : t.address m = u.address n) :
    t = u ∧ (m = .mainnet ↔ n = .mainnet) := by
  have hkind := ctorIdx_eq_of_address_eq ht hu h
  cases t with
  | publicKeyHash hash =>
    cases u with
    | publicKeyHash hash' =>
      obtain ⟨hversion, rfl⟩ := Base58.checkEncode_inj.1 h
      exact ⟨rfl, Network.publicKeyHashVersion_eq_iff.1 hversion⟩
    | scriptHash hash' => cases hkind
    | witness version' program' => cases hkind
  | scriptHash hash =>
    cases u with
    | publicKeyHash hash' => cases hkind
    | scriptHash hash' =>
      obtain ⟨hversion, rfl⟩ := Base58.checkEncode_inj.1 h
      exact ⟨rfl, Network.scriptHashVersion_eq_iff.1 hversion⟩
    | witness version' program' => cases hkind
  | witness version program =>
    cases u with
    | publicKeyHash hash' => cases hkind
    | scriptHash hash' => cases hkind
    | witness version' program' =>
      obtain ⟨hhrp, rfl, rfl⟩ := (Bech32.encode_inj (version_lt_of_isStandard ht)
        (version_lt_of_isStandard hu)).1 h
      exact ⟨rfl, Network.hrp_eq_iff hhrp⟩

end Template

/-! ## Scripts -/

namespace Network

/-- An address names one script and one kind of network. -/
theorem eq_of_address?_eq {m n : Network} {s t : Bytes} {a : String}
    (hs : m.address? s = some a) (ht : n.address? t = some a) :
    s = t ∧ (m = .mainnet ↔ n = .mainnet) := by
  obtain ⟨x, hx, hxa⟩ := Option.map_eq_some_iff.1 hs
  obtain ⟨y, hy, hya⟩ := Option.map_eq_some_iff.1 ht
  obtain ⟨rfl, hxs⟩ := Template.script_ofScript? hx
  obtain ⟨rfl, hys⟩ := Template.script_ofScript? hy
  obtain ⟨rfl, hnet⟩ := Template.address_inj hxs hys (hxa.trans hya.symm)
  exact ⟨rfl, hnet⟩

/-- A script that pays to a witness key hash has the same address on two networks for tests. -/
theorem eq_of_address?_eq_tests :
    let script : Bytes := [0x00, 0x14, 0x75, 0x1e, 0x76, 0xe8, 0x19, 0x91, 0x96, 0xd4, 0x54, 0x94,
      0x1c, 0x45, 0xd1, 0xb3, 0xa3, 0x23, 0xf1, 0x43, 0x3b, 0xd6]
    testnet.address? script = some "tb1qw508d6qejxtdg4y5r3zarvary0c5xw7kxpjzsx" ∧
      signet.address? script = some "tb1qw508d6qejxtdg4y5r3zarvary0c5xw7kxpjzsx" ∧
        (script = script ∧ (testnet = mainnet ↔ signet = mainnet)) := by
  intro script
  have htestnet : testnet.address? script = some "tb1qw508d6qejxtdg4y5r3zarvary0c5xw7kxpjzsx" := by
    decide +kernel
  have hsignet : signet.address? script = some "tb1qw508d6qejxtdg4y5r3zarvary0c5xw7kxpjzsx" := by
    decide +kernel
  exact ⟨htestnet, hsignet, eq_of_address?_eq htestnet hsignet⟩

end Network

end InscriptionLedger
