import Courier.Config.Violation
import Courier.Proofs.Text.Numeral
import Courier.Proofs.Text.Utf8

namespace Courier

namespace Duration

/-- In nanoseconds. -/
def total (d : Duration) : Nat :=
  d.seconds.toNat * 1000000000 + d.nanos.val

theorem millis_eq (d : Duration) : d.millis = d.total / 1000000 := by
  unfold millis total
  omega

theorem seconds_eq (d : Duration) : d.seconds.toNat = d.total / 1000000000 := by
  unfold total
  omega

/-- A lower limit in whole milliseconds is judged as it is. -/
theorem millis_lt_iff {d : Duration} {n : Nat} : d.millis < n ↔ d.total < n * 1000000 := by
  rw [millis_eq]
  omega

theorem le_total_iff {d : Duration} {n : Nat} : n * 1000000 ≤ d.total ↔ n ≤ d.millis := by
  rw [millis_eq]
  omega

theorem lt_seconds_iff {d : Duration} {n : Nat} :
    n < d.seconds.toNat ↔ (n + 1) * 1000000000 ≤ d.total := by
  rw [seconds_eq]
  omega

end Duration

namespace Address

open Text

theorem splitLast_eq_none_iff {c : Char} {cs : List Char} : splitLast c cs = none ↔ c ∉ cs := by
  induction cs with
  | nil => simp [splitLast]
  | cons x xs ih =>
    unfold splitLast
    cases hs : splitLast c xs with
    | some halves =>
      have hmem : c ∈ xs := Decidable.not_not.mp (mt ih.mpr (by simp [hs]))
      simp [hmem]
    | none =>
      have hmem : c ∉ xs := ih.mp hs
      by_cases hx : x = c
      · simp [hx]
      · simp [hx, hmem, Ne.symm hx]

theorem splitLast_append {c : Char} {before after : List Char} (h : c ∉ after) :
    splitLast c (before ++ c :: after) = some (before, after) := by
  induction before with
  | nil =>
    -- What follows the separator is not split, so it is split here.
    rw [List.nil_append, splitLast, splitLast_eq_none_iff.mpr h]
    simp
  | cons x before ih => rw [List.cons_append, splitLast, ih]

theorem eq_of_splitLast {c : Char} {cs before after : List Char}
    (h : splitLast c cs = some (before, after)) : cs = before ++ c :: after ∧ c ∉ after := by
  induction cs generalizing before with
  | nil => cases h
  | cons x xs ih =>
    unfold splitLast at h
    split at h
    · rename_i front back hs
      cases h
      obtain ⟨rfl, hback⟩ := ih hs
      exact ⟨rfl, hback⟩
    · rename_i hs
      split at h
      · rename_i hx
        cases h
        exact ⟨by rw [hx, List.nil_append], splitLast_eq_none_iff.mp hs⟩
      · cases h

/-- A text is split where a separator stands after which there is none. -/
theorem splitLast_eq_some_iff {c : Char} {cs before after : List Char} :
    splitLast c cs = some (before, after) ↔ cs = before ++ c :: after ∧ c ∉ after := by
  constructor
  · exact eq_of_splitLast
  · rintro ⟨rfl, h⟩
    exact splitLast_append h

/-- A host, the last colon, and a port of 16 bits. -/
def IsEndpoint (address : String) : Prop :=
  ∃ host port n, address.toList = host ++ ':' :: port ∧ host ≠ [] ∧ ':' ∉ port ∧
    IsNumeral port n ∧ n < 65536

theorem isWord16_iff {cs : List Char} :
    Decimal.isWord16 cs = true ↔ ∃ n, IsNumeral cs n ∧ n < 65536 := by
  unfold Decimal.isWord16
  have hlt (n : Nat) : n < 65536 ↔ n ≤ Decimal.maxWord16 := by
    rw [Nat.lt_iff_le_pred (by decide)]
    rfl
  simp only [hlt, ← Decimal.parse_eq_ok_iff]
  cases Decimal.parse Decimal.maxWord16 cs <;> simp [Except.isOk, Except.toBool]

theorem isValid_iff {address : String} : isValid address = true ↔ IsEndpoint address := by
  unfold isValid IsEndpoint
  constructor
  · intro h
    split at h
    · rename_i host port hs
      rw [Bool.and_eq_true, Bool.not_eq_true', List.isEmpty_eq_false_iff, isWord16_iff] at h
      obtain ⟨hhost, n, hn, hlt⟩ := h
      obtain ⟨haddress, hport⟩ := splitLast_eq_some_iff.mp hs
      exact ⟨host, port, n, haddress, hhost, hport, hn, hlt⟩
    · cases h
  · rintro ⟨host, port, n, haddress, hhost, hport, hn, hlt⟩
    rw [haddress, splitLast_append hport]
    simp only [Bool.and_eq_true, Bool.not_eq_true', List.isEmpty_eq_false_iff, isWord16_iff]
    exact ⟨hhost, n, hn, hlt⟩

instance (address : String) : Decidable (IsEndpoint address) :=
  decidable_of_iff _ isValid_iff

theorem not_isEndpoint_empty : ¬IsEndpoint "" := by
  decide +kernel

end Address

/-- What a configuration is held to, in the order in which it is judged. -/
inductive Limit where
  | address
  | shortestConnection
  | longestConnection
  | shortestOperation
  | shortestResponse
  | retries
  | appName
  deriving DecidableEq

namespace Limit

def all : List Limit :=
  [.address, .shortestConnection, .longestConnection, .shortestOperation, .shortestResponse, .retries,
    .appName]

theorem mem_all (l : Limit) : l ∈ all := by
  cases l <;> decide

variable (c : Config)

/-- The limit as it is stated. -/
def IsKept : Limit → Prop
  | .address => Address.IsEndpoint c.client.address
  | .shortestConnection => 100 * 1000000 ≤ c.client.connectionTimeout.total
  | .longestConnection => c.client.connectionTimeout.total ≤ 300 * 1000000000
  | .shortestOperation => 10 * 1000000 ≤ c.client.operationTimeout.total
  | .shortestResponse => 100 * 1000000 ≤ c.client.responseTimeout.total
  | .retries => c.client.maxRetries.toNat ≤ 10
  | .appName => 1 ≤ c.logging.appName.length ∧ c.logging.appName.length ≤ 64

/-- The limit as it is judged. -/
def IsPassed : Limit → Prop
  | .longestConnection => c.client.connectionTimeout.total < 301 * 1000000000
  | .appName => 1 ≤ (Text.Utf8.bytes c.logging.appName).length ∧
      (Text.Utf8.bytes c.logging.appName).length ≤ 64
  | l => l.IsKept c

/-- The limit is judged otherwise than it is stated: a timeout that is too long by less than a second
passes, and a name of few characters that fills many bytes does not. -/
def IsMisjudged : Limit → Prop
  | .longestConnection => 300 * 1000000000 < c.client.connectionTimeout.total ∧
      c.client.connectionTimeout.total < 301 * 1000000000
  | .appName => c.logging.appName.length ≤ 64 ∧ 64 < (Text.Utf8.bytes c.logging.appName).length
  | _ => False

/-- What is reported of a limit that is not passed. -/
def violation : Limit → Violation
  | .address =>
    if c.client.address = "" then .addressEmpty else .addressMalformed c.client.address
  | .shortestConnection => .connectionTimeoutShort
  | .longestConnection => .connectionTimeoutLong
  | .shortestOperation => .operationTimeoutShort
  | .shortestResponse => .responseTimeoutShort
  | .retries => .tooManyRetries c.client.maxRetries
  | .appName =>
    if c.logging.appName = "" then .appNameEmpty
    else .appNameLong (Text.Utf8.bytes c.logging.appName).length

instance : (l : Limit) → Decidable (l.IsKept c)
  | .address => inferInstanceAs (Decidable (Address.IsEndpoint _))
  | .shortestConnection | .longestConnection | .shortestOperation | .shortestResponse | .retries =>
    inferInstanceAs (Decidable (_ ≤ _))
  | .appName => inferInstanceAs (Decidable (_ ∧ _))

instance : (l : Limit) → Decidable (l.IsPassed c)
  | .address => inferInstanceAs (Decidable (Address.IsEndpoint _))
  | .shortestConnection | .shortestOperation | .shortestResponse | .retries =>
    inferInstanceAs (Decidable (_ ≤ _))
  | .longestConnection => inferInstanceAs (Decidable (_ < _))
  | .appName => inferInstanceAs (Decidable (_ ∧ _))

/-- What is reported of a limit, if anything. -/
def report (l : Limit) : Option Violation :=
  if l.IsPassed c then none else some (l.violation c)

variable {c : Config} {l : Limit}

theorem report_of_passed (h : l.IsPassed c) : l.report c = none :=
  if_pos h

theorem report_of_not_passed (h : ¬l.IsPassed c) : l.report c = some (l.violation c) :=
  if_neg h

theorem ite_eq_report {broken : Prop} [Decidable broken] (h : broken ↔ ¬l.IsPassed c) :
    (if broken then some (l.violation c) else none) = l.report c := by
  by_cases hl : l.IsPassed c
  · rw [report_of_passed hl, if_neg fun hb => h.mp hb hl]
  · rw [report_of_not_passed hl, if_pos (h.mpr hl)]

theorem filterMap_report (limits : List Limit) :
    limits.filterMap (report c) = (limits.filter fun l => ¬l.IsPassed c).map (violation c) := by
  induction limits with
  | nil => rfl
  | cons l limits ih =>
    by_cases h : l.IsPassed c
    · rw [List.filterMap_cons_none (report_of_passed h), ih, List.filter_cons_of_neg (by simpa using h)]
    · rw [List.filterMap_cons_some (report_of_not_passed h), ih,
        List.filter_cons_of_pos (by simpa using h), List.map_cons]

section Judging

theorem address_report : c.client.addressViolation = address.report c := by
  unfold ClientConfig.addressViolation
  by_cases hempty : c.client.address = ""
  · have hfails : ¬address.IsPassed c := by
      intro h
      exact Address.not_isEndpoint_empty (hempty ▸ h)
    rw [if_pos (String.isEmpty_iff.mpr hempty), report_of_not_passed hfails, violation, if_pos hempty]
  rw [if_neg (mt String.isEmpty_iff.mp hempty)]
  by_cases h : address.IsPassed c
  · rw [if_pos (Address.isValid_iff.mpr h), report_of_passed h]
  · rw [if_neg (mt Address.isValid_iff.mp h), report_of_not_passed h, violation, if_neg hempty]

/-- A timeout breaks one of its two limits at most. -/
theorem connection_report : c.client.connectionViolation.toList =
    (shortestConnection.report c).toList ++ (longestConnection.report c).toList := by
  unfold ClientConfig.connectionViolation
  by_cases hshort : c.client.connectionTimeout.millis < 100
  · have hbroken := Duration.millis_lt_iff.mp hshort
    have hfails : ¬shortestConnection.IsPassed c := Nat.not_le_of_lt hbroken
    have hpasses : longestConnection.IsPassed c := Nat.lt_of_lt_of_le hbroken (by decide)
    rw [if_pos hshort, report_of_not_passed hfails, report_of_passed hpasses]
    rfl
  have hpasses : shortestConnection.IsPassed c :=
    Nat.le_of_not_lt (mt Duration.millis_lt_iff.mpr hshort)
  rw [if_neg hshort, report_of_passed hpasses]
  by_cases hlong : c.client.connectionTimeout.seconds.toNat > 300
  · have hfails : ¬longestConnection.IsPassed c := Nat.not_lt_of_le (Duration.lt_seconds_iff.mp hlong)
    rw [if_pos hlong, report_of_not_passed hfails]
    rfl
  · have hpasses : longestConnection.IsPassed c :=
      Nat.lt_of_not_le (mt Duration.lt_seconds_iff.mpr hlong)
    rw [if_neg hlong, report_of_passed hpasses]
    rfl

theorem operation_report : c.client.operationViolation = shortestOperation.report c := by
  have h : c.client.operationTimeout.millis < 10 ↔ ¬shortestOperation.IsPassed c :=
    Duration.millis_lt_iff.trans Nat.not_le.symm
  exact ite_eq_report h

theorem response_report : c.client.responseViolation = shortestResponse.report c := by
  have h : c.client.responseTimeout.millis < 100 ↔ ¬shortestResponse.IsPassed c :=
    Duration.millis_lt_iff.trans Nat.not_le.symm
  exact ite_eq_report h

theorem retries_report : c.client.retriesViolation = retries.report c := by
  have h : c.client.maxRetries > 10 ↔ ¬retries.IsPassed c :=
    UInt32.lt_iff_toNat_lt.trans Nat.not_le.symm
  exact ite_eq_report h

theorem appName_report : c.logging.violations = (appName.report c).toList := by
  unfold LoggingConfig.violations
  by_cases hempty : c.logging.appName = ""
  · have hfails : ¬appName.IsPassed c := by
      rintro ⟨h, -⟩
      rw [hempty] at h
      exact absurd h (by decide)
    rw [if_pos (String.isEmpty_iff.mpr hempty), report_of_not_passed hfails, violation, if_pos hempty]
    rfl
  rw [if_neg (mt String.isEmpty_iff.mp hempty)]
  by_cases hlong : (Text.Utf8.bytes c.logging.appName).length > 64
  · have hfails : ¬appName.IsPassed c := fun h => Nat.not_le_of_lt hlong h.2
    rw [if_pos hlong, report_of_not_passed hfails, violation, if_neg hempty]
    rfl
  · have hpasses : appName.IsPassed c := by
      refine ⟨Nat.pos_of_ne_zero fun h => hempty ?_, Nat.le_of_not_lt hlong⟩
      exact String.length_eq_zero_iff.mp (Nat.eq_zero_of_le_zero (h ▸ Text.Utf8.length_le_bytes _))
    rw [if_neg hlong, report_of_passed hpasses]
    rfl

end Judging

/-- A limit is judged as it is stated but for those that are misjudged. -/
theorem isPassed_iff_isKept_iff (l : Limit) : (l.IsPassed c ↔ l.IsKept c) ↔ ¬l.IsMisjudged c := by
  cases l with
  | longestConnection =>
    unfold IsPassed IsKept IsMisjudged
    omega
  | appName =>
    have hlength := Text.Utf8.length_le_bytes c.logging.appName
    have hempty : c.logging.appName.length = 0 → (Text.Utf8.bytes c.logging.appName).length = 0 := by
      intro h
      rw [String.length_eq_zero_iff.mp h]
      rfl
    unfold IsPassed IsKept IsMisjudged
    omega
  | address | shortestConnection | shortestOperation | shortestResponse | retries =>
    exact ⟨fun _ => id, fun _ => Iff.rfl⟩

end Limit

namespace Config

variable (c : Config)

theorem violations_eq_filterMap : c.violations = Limit.all.filterMap (Limit.report c) := by
  have hcons {α β : Type} (f : α → Option β) (a : α) (as : List α) :
      (a :: as).filterMap f = (f a).toList ++ as.filterMap f := by
    cases h : f a <;> simp [h]
  -- Each field reports its own limits, and the fields come in the order of the limits.
  unfold violations ClientConfig.violations Limit.all
  simp only [hcons, List.filterMap_nil, List.append_nil, id_eq, List.append_assoc]
  rw [Limit.address_report, Limit.connection_report, Limit.operation_report, Limit.response_report,
    Limit.retries_report, Limit.appName_report, List.append_assoc]

theorem violations_eq_nil_iff : c.violations = [] ↔ ∀ l : Limit, l.IsPassed c := by
  rw [violations_eq_filterMap, List.filterMap_eq_nil_iff]
  constructor
  · intro h l
    by_contra hl
    exact Option.some_ne_none _ ((Limit.report_of_not_passed hl).symm.trans (h l l.mem_all))
  · intro h l _
    exact Limit.report_of_passed (h l)

theorem check_eq_ok_iff : c.check = .ok () ↔ c.violations = [] := by
  unfold check
  cases c.violations <;> simp

theorem filter_isPassed (h : ∀ l : Limit, ¬l.IsMisjudged c) :
    (Limit.all.filter fun l => ¬l.IsPassed c) = Limit.all.filter fun l => ¬l.IsKept c := by
  apply List.filter_congr
  intro l _
  simp only [Limit.isPassed_iff_isKept_iff l |>.mpr (h l)]

/-- Validation reports each limit that is not passed, once and in order, and all is well if there is
none. The limits that are judged otherwise than they are stated are the longest connection timeout, by
less than a second, and the length of an application name with characters of several bytes; apart from
these, what is reported are the limits that are not kept. -/
theorem violations_are_broken_limits (c : Config) :
    c.violations = (Limit.all.filter fun l => ¬l.IsPassed c).map (Limit.violation c) ∧
    (c.violations = [] ↔ ∀ l : Limit, l.IsPassed c) ∧
    (c.check = .ok () ↔ c.violations = []) ∧
    (∀ l : Limit, (l.IsPassed c ↔ l.IsKept c) ↔ ¬l.IsMisjudged c) ∧
    ((∀ l : Limit, ¬l.IsMisjudged c) →
      c.violations = (Limit.all.filter fun l => ¬l.IsKept c).map (Limit.violation c)) := by
  have hreports : c.violations = (Limit.all.filter fun l => ¬l.IsPassed c).map (Limit.violation c) :=
    (violations_eq_filterMap c).trans (Limit.filterMap_report _)
  refine ⟨hreports, violations_eq_nil_iff c, check_eq_ok_iff c, Limit.isPassed_iff_isKept_iff, ?_⟩
  intro h
  rw [hreports, filter_isPassed c h]

/-- Four limits are broken at once, and a fifth one is kept to the nanosecond. -/
theorem violations_are_broken_limits_four :
    let c : Config :=
      ⟨⟨"", ⟨0, 99999999⟩, ⟨0, 10000000⟩, .ofMillis 30000, 50⟩, ⟨"", .info, false⟩⟩
    (∀ l : Limit, ¬l.IsMisjudged c) ∧
    c.violations = [.addressEmpty, .connectionTimeoutShort, .tooManyRetries 50, .appNameEmpty] := by
  intro c
  have h : ∀ l : Limit, ¬l.IsMisjudged c := by
    intro l
    rw [← Limit.isPassed_iff_isKept_iff]
    cases l <;> decide +kernel
  obtain ⟨-, -, -, -, hbroken⟩ := violations_are_broken_limits c
  exact ⟨h, (hbroken h).trans (by decide +kernel)⟩

/-- A connection timeout of 300.5 seconds is longer than the limit of 300 seconds and is not reported,
and a name of 33 characters is within the limit of 64 and is reported as one of 66. -/
theorem limits_misjudged :
    let late : Config := { Config.default with
      client := { ClientConfig.default with connectionTimeout := ⟨300, 500000000⟩ } }
    let accented : Config := { Config.default with
      logging := { LoggingConfig.default with appName := String.ofList (List.replicate 33 'é') } }
    (late.violations = [] ∧ ¬Limit.longestConnection.IsKept late) ∧
    (∀ l : Limit, l.IsKept accented) ∧ accented.violations.map Violation.message =
      ["Application name too long: 66 characters (maximum: 64)"] := by
  intro late accented
  refine ⟨⟨by decide +kernel, by decide +kernel⟩, fun l => ?_, ?_⟩
  · cases l <;> decide +kernel
  · decide +kernel

end Config

end Courier
