import Courier.Config.Variables
import Courier.Proofs.Text.Decoding
import Courier.Proofs.Text.Numeral
import Courier.Proofs.Wire.Reading

namespace Courier.Config

open Text

namespace Variables

variable (env : Variables)

/-- The variable is set, to a text. -/
def Says (name text : String) : Prop :=
  env name = some (Utf8.bytes text)

/-- The variable is not set, or not to a text. -/
def IsSilent (name : String) : Prop :=
  ∀ text, ¬env.Says name text

/-- The variable is set to a number that is small enough, or says nothing. -/
inductive SaysNumber (name : String) (bound : Nat) : Option Nat → Prop where
  | silent : env.IsSilent name → SaysNumber name bound none
  | number {text : String} {n : Nat} :
    env.Says name text → IsNumberText text.toList n → n ≤ bound → SaysNumber name bound (some n)

/-- The variable is set to a text that is no number, or none that is small enough. -/
def SaysNoNumber (name : String) (bound : Nat) : Prop :=
  ∃ text, env.Says name text ∧ ∀ n, IsNumberText text.toList n → bound < n

/-- The variables that hold numbers, with the largest number that each may hold, in order. -/
def numeric : List (String × Nat) :=
  [(Variable.connectionTimeout, Decimal.maxWord64), (Variable.operationTimeout, Decimal.maxWord64),
    (Variable.responseTimeout, Decimal.maxWord64), (Variable.maxRetries, Decimal.maxWord32)]

/-- The first of the variables for numbers that says something else. -/
def FirstWrong (name : String) : Prop :=
  ∃ before bound after, numeric = before ++ (name, bound) :: after ∧ env.SaysNoNumber name bound ∧
    ∀ p ∈ before, ¬env.SaysNoNumber p.1 p.2

/-- The variable sets a timeout, or leaves it as it is. -/
def SetsTimeout (name : String) (default d : Duration) : Prop :=
  ∃ n, env.SaysNumber name Decimal.maxWord64 n ∧
    d = n.elim default fun ms => .ofMillis (UInt64.ofNat ms)

/-- The configuration is what the variables say, on top of the defaults. -/
structure Sets (config : Config) : Prop where
  address : (env.IsSilent Variable.address ∧
      config.client.address = ClientConfig.default.address) ∨
    env.Says Variable.address config.client.address
  connectionTimeout : env.SetsTimeout Variable.connectionTimeout
    ClientConfig.default.connectionTimeout config.client.connectionTimeout
  operationTimeout : env.SetsTimeout Variable.operationTimeout
    ClientConfig.default.operationTimeout config.client.operationTimeout
  responseTimeout : env.SetsTimeout Variable.responseTimeout
    ClientConfig.default.responseTimeout config.client.responseTimeout
  maxRetries : ∃ n, env.SaysNumber Variable.maxRetries Decimal.maxWord32 n ∧
    config.client.maxRetries = n.elim ClientConfig.default.maxRetries UInt32.ofNat
  logging : config.logging = LoggingConfig.default

section Lookup

variable {env : Variables} {name text : String}

theorem lookup_eq_some_iff : env.lookup name = some text ↔ env.Says name text := by
  unfold lookup Says
  rw [Option.map_eq_some_iff]
  constructor
  · rintro ⟨cs, hcs, rfl⟩
    obtain ⟨bytes, hbytes, hdecode⟩ := Option.bind_eq_some_iff.mp hcs
    rw [hbytes, Utf8.decode?_eq_some_iff.mp hdecode, Utf8.bytes, String.toList_ofList]
  · intro h
    refine ⟨text.toList, ?_, String.ofList_toList⟩
    rw [h, Option.bind_some]
    exact Utf8.decode?_eq_some_iff.mpr rfl

theorem lookup_eq_none_iff : env.lookup name = none ↔ env.IsSilent name := by
  unfold IsSilent
  simp only [← lookup_eq_some_iff]
  rw [Option.eq_none_iff_forall_not_mem]
  rfl

end Lookup

section Number

variable {env : Variables} {name : String} {bound : Nat}

theorem number?_of_silent (h : env.IsSilent name) : number? env.lookup name bound = .ok none := by
  unfold number?
  rw [lookup_eq_none_iff.mpr h]

theorem number?_of_number {text : String} {n : Nat} (h : env.Says name text)
    (hn : IsNumberText text.toList n) (hle : n ≤ bound) :
    number? env.lookup name bound = .ok (some n) := by
  unfold number?
  rw [lookup_eq_some_iff.mpr h]
  simp only [Decimal.parse_trim_eq_ok_iff.mpr ⟨hn, hle⟩]

/-- What the variable says is read, or refused with the name of the variable. -/
theorem number?_cases (env : Variables) (name : String) (bound : Nat) :
    (∃ n, number? env.lookup name bound = .ok n ∧ env.SaysNumber name bound n) ∨
    ∃ fault : Decimal.ParseError, number? env.lookup name bound =
      .error (.config ("Invalid " ++ name ++ ": " ++ fault.message)) ∧
        env.SaysNoNumber name bound := by
  cases hl : env.lookup name with
  | none =>
    have hsilent := lookup_eq_none_iff.mp hl
    exact .inl ⟨none, number?_of_silent hsilent, .silent hsilent⟩
  | some text =>
    have hsaid := lookup_eq_some_iff.mp hl
    cases hp : Decimal.parse bound (trim text.toList) with
    | ok n =>
      obtain ⟨hn, hle⟩ := Decimal.parse_trim_eq_ok_iff.mp hp
      exact .inl ⟨some n, number?_of_number hsaid hn hle, .number hsaid hn hle⟩
    | error fault =>
      refine .inr ⟨fault, ?_, text, hsaid, fun n hn => ?_⟩
      · unfold number?
        rw [hl]
        simp only [hp]
      · by_contra hle
        rw [Decimal.parse_trim_eq_ok_iff.mpr ⟨hn, Nat.le_of_not_lt hle⟩] at hp
        cases hp

theorem number?_eq_ok_iff {n : Option Nat} :
    number? env.lookup name bound = .ok n ↔ env.SaysNumber name bound n := by
  constructor
  · intro h
    rcases number?_cases env name bound with ⟨n', hread, hsaid⟩ | ⟨fault, hread, -⟩
    · cases hread.symm.trans h
      exact hsaid
    · cases hread.symm.trans h
  · rintro (hsilent | ⟨hsaid, hn, hle⟩)
    · exact number?_of_silent hsilent
    · exact number?_of_number hsaid hn hle

/-- What is refused is no number, and the refusal names the variable. -/
theorem number?_eq_error {e : TransferError} (h : number? env.lookup name bound = .error e) :
    env.SaysNoNumber name bound ∧
      ∃ fault : Decimal.ParseError, e = .config ("Invalid " ++ name ++ ": " ++ fault.message) := by
  rcases number?_cases env name bound with ⟨n, hread, -⟩ | ⟨fault, hread, hsaid⟩
  · cases hread.symm.trans h
  · cases hread.symm.trans h
    exact ⟨hsaid, fault, rfl⟩

/-- What is read is not refused. -/
theorem SaysNumber.not_saysNoNumber {n : Option Nat} (h : env.SaysNumber name bound n) :
    ¬env.SaysNoNumber name bound := by
  rintro ⟨text, hsaid, hno⟩
  cases h with
  | silent hsilent => exact hsilent text hsaid
  | @number text' n hsaid' hn hle =>
    have heq : text' = text :=
      Option.some.inj ((lookup_eq_some_iff.mpr hsaid').symm.trans (lookup_eq_some_iff.mpr hsaid))
    subst heq
    exact absurd hle (Nat.not_le_of_lt (hno n hn))

theorem exists_saysNumber_iff : (∃ n, env.SaysNumber name bound n) ↔
    env.IsSilent name ∨ ∃ text n, env.Says name text ∧ IsNumberText text.toList n ∧ n ≤ bound := by
  constructor
  · rintro ⟨_, hsilent | ⟨hsaid, hn, hle⟩⟩
    · exact .inl hsilent
    · exact .inr ⟨_, _, hsaid, hn, hle⟩
  · rintro (hsilent | ⟨text, n, hsaid, hn, hle⟩)
    · exact ⟨none, .silent hsilent⟩
    · exact ⟨some n, .number hsaid hn hle⟩

theorem timeout_eq_ok_iff {default d : Duration} :
    timeout env.lookup name default = .ok d ↔ env.SetsTimeout name default d := by
  unfold timeout SetsTimeout
  simp only [← number?_eq_ok_iff]
  cases number? env.lookup name Decimal.maxWord64 with
  | ok n => simp [Except.map, eq_comm]
  | error e => simp [Except.map]

theorem timeout_eq_error {default : Duration} {e : TransferError}
    (h : timeout env.lookup name default = .error e) :
    number? env.lookup name Decimal.maxWord64 = .error e := by
  unfold timeout at h
  cases hread : number? env.lookup name Decimal.maxWord64 with
  | ok n =>
    rw [hread] at h
    cases h
  | error e' =>
    rw [hread] at h
    cases h
    rfl

theorem eq_getD_iff {default x : String} :
    (env.lookup name).getD default = x ↔ (env.IsSilent name ∧ x = default) ∨ env.Says name x := by
  rw [← lookup_eq_none_iff, ← lookup_eq_some_iff]
  cases env.lookup name <;> simp [eq_comm]

end Number

theorem ofRawVariables_eq_ok_iff {env : Variables} {config : Config} :
    ofRawVariables env = .ok config ↔ env.Sets config := by
  change ofVariables env.lookup = .ok config ↔ _
  unfold ofVariables
  simp only [bind_eq_ok, timeout_eq_ok_iff, number?_eq_ok_iff]
  constructor
  · rintro ⟨connection, hconnection, operation, hoperation, response, hresponse, retries, hretries,
      hpure⟩
    cases hpure
    exact ⟨eq_getD_iff.mp rfl, hconnection, hoperation, hresponse, ⟨retries, hretries, rfl⟩, rfl⟩
  · rintro ⟨haddress, hconnection, hoperation, hresponse, ⟨retries, hretries, hmax⟩, hlogging⟩
    refine ⟨_, hconnection, _, hoperation, _, hresponse, retries, hretries, ?_⟩
    apply congrArg Except.ok
    apply Config.ext
    · apply ClientConfig.ext
      · exact eq_getD_iff.mpr haddress
      · rfl
      · rfl
      · rfl
      · exact hmax.symm
    · exact hlogging.symm

theorem ofRawVariables_eq_error {env : Variables} {e : TransferError}
    (h : ofRawVariables env = .error e) :
    ∃ name, env.FirstWrong name ∧
      ∃ fault : Decimal.ParseError, e = .config ("Invalid " ++ name ++ ": " ++ fault.message) := by
  change ofVariables env.lookup = .error e at h
  have hsaid {name : String} {d default : Duration}
      (hread : timeout env.lookup name default = .ok d) :
      ¬env.SaysNoNumber name Decimal.maxWord64 := by
    obtain ⟨n, hn, -⟩ := timeout_eq_ok_iff.mp hread
    exact hn.not_saysNoNumber
  rcases bind_eq_error.mp h with hconnection | ⟨connection, hconnection, h⟩
  · obtain ⟨hwrong, hfault⟩ := number?_eq_error (timeout_eq_error hconnection)
    exact ⟨_, ⟨[], _, _, rfl, hwrong, by simp⟩, hfault⟩
  rcases bind_eq_error.mp h with hoperation | ⟨operation, hoperation, h⟩
  · obtain ⟨hwrong, hfault⟩ := number?_eq_error (timeout_eq_error hoperation)
    exact ⟨_, ⟨[_], _, _, rfl, hwrong, by simp [hsaid hconnection]⟩, hfault⟩
  rcases bind_eq_error.mp h with hresponse | ⟨response, hresponse, h⟩
  · obtain ⟨hwrong, hfault⟩ := number?_eq_error (timeout_eq_error hresponse)
    exact ⟨_, ⟨[_, _], _, _, rfl, hwrong, by simp [hsaid hconnection, hsaid hoperation]⟩, hfault⟩
  rcases bind_eq_error.mp h with hretries | ⟨retries, hretries, h⟩
  · obtain ⟨hwrong, hfault⟩ := number?_eq_error hretries
    exact ⟨_, ⟨[_, _, _], _, _, rfl, hwrong,
      by simp [hsaid hconnection, hsaid hoperation, hsaid hresponse]⟩, hfault⟩
  · cases h

theorem exists_config_iff {env : Variables} : (∃ config, ofRawVariables env = .ok config) ↔
    ∀ p ∈ numeric, ∃ n, env.SaysNumber p.1 p.2 n := by
  constructor
  · rintro ⟨config, h⟩
    obtain ⟨-, ⟨_, hconnection, -⟩, ⟨_, hoperation, -⟩, ⟨_, hresponse, -⟩, ⟨_, hretries, -⟩, -⟩ :=
      ofRawVariables_eq_ok_iff.mp h
    simp only [numeric, List.forall_mem_cons, List.not_mem_nil, false_imp_iff, implies_true,
      and_true]
    exact ⟨⟨_, hconnection⟩, ⟨_, hoperation⟩, ⟨_, hresponse⟩, _, hretries⟩
  · intro h
    cases hread : ofRawVariables env with
    | ok config => exact ⟨config, rfl⟩
    | error e =>
      obtain ⟨name, ⟨before, bound, after, hnumeric, hwrong, -⟩, -⟩ := ofRawVariables_eq_error hread
      have hmem : (name, bound) ∈ numeric := by simp [hnumeric]
      obtain ⟨n, hn⟩ := h _ hmem
      exact absurd hwrong hn.not_saysNoNumber

/-- A variable says nothing just if it is not set, or set to bytes that are no text. -/
theorem isSilent_iff {env : Variables} {name : String} :
    env.IsSilent name ↔
      env name = none ∨ ∃ bytes, env name = some bytes ∧ ∀ text, bytes ≠ Utf8.bytes text := by
  unfold IsSilent Says
  cases env name <;> simp

/-- A configuration comes of the variables just if each number is not said or is one that is small
enough, and then it is what they say. If none comes of them, the first that says something else is
named. -/
theorem ofRawVariables_spec (env : Variables) :
    (∀ config, ofRawVariables env = .ok config ↔ env.Sets config) ∧
    ((∃ config, ofRawVariables env = .ok config) ↔
      ∀ p ∈ numeric, env.IsSilent p.1 ∨
        ∃ text n, env.Says p.1 text ∧ IsNumberText text.toList n ∧ n ≤ p.2) ∧
    (∀ e, ofRawVariables env = .error e → ∃ name, env.FirstWrong name ∧
      ∃ fault : Decimal.ParseError, e = .config ("Invalid " ++ name ++ ": " ++ fault.message)) ∧
    ∀ name, env.IsSilent name ↔
      env name = none ∨ ∃ bytes, env name = some bytes ∧ ∀ text, bytes ≠ Utf8.bytes text := by
  refine ⟨fun _ => ofRawVariables_eq_ok_iff, ?_, fun _ => ofRawVariables_eq_error,
    fun _ => isSilent_iff⟩
  simp only [exists_config_iff, exists_saysNumber_iff]

/-- The byte `FF` is in no text, and where it is due to be a number it is passed over. -/
theorem unreadable_retries_passed_over :
    (∀ text, [0xFF] ≠ Utf8.bytes text) ∧
      ofRawVariables (fun name => if name = Variable.maxRetries then some [0xFF] else none) =
        .ok .default := by
  refine ⟨fun text h => ?_, by decide +kernel⟩
  have hread := Utf8.decode?_eq_some_iff.mpr h
  have hnone : Utf8.decode? [0xFF] = none := by decide
  cases hnone.symm.trans hread

end Variables

end Courier.Config
