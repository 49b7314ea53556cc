import Courier.Config.Record
import Courier.Proofs.Config.Limits
import Courier.Proofs.Wire.Reading

namespace Courier

namespace Duration

/-- Rounded down to whole milliseconds. -/
def floor (d : Duration) : Duration :=
  ⟨d.seconds, ⟨d.nanos.val / 1000000 * 1000000, by omega⟩⟩

/-- As it comes back from its value. -/
def reread (d : Duration) : Duration :=
  .ofMillis (UInt64.ofNat d.millis)

@[simp] theorem millis_floor (d : Duration) : d.floor.millis = d.millis := by
  simp only [floor, millis]
  omega

@[simp] theorem millis_reread (d : Duration) : d.reread.millis = d.millis % UInt64.size := by
  rw [reread, millis_ofMillis, UInt64.toNat_ofNat']

/-- Whole milliseconds say all of a duration that is rounded down to them. -/
theorem reread_eq_floor {d : Duration} (h : d.millis < UInt64.size) : d.reread = d.floor := by
  have hms : (UInt64.ofNat d.millis).toNat = d.millis := by
    rw [UInt64.toNat_ofNat', Nat.mod_eq_of_lt h]
  apply Duration.ext
  · apply UInt64.toNat_inj.mp
    simp only [reread, ofMillis, floor, UInt64.toNat_div, hms, UInt64.reduceToNat]
    unfold millis
    omega
  · apply Fin.ext
    simp only [reread, ofMillis, floor, hms]
    unfold millis
    omega

theorem reread_eq_floor_iff {d : Duration} : d.reread = d.floor ↔ d.millis < UInt64.size := by
  constructor
  · intro h
    have hmillis := congrArg millis h
    rw [millis_reread, millis_floor] at hmillis
    exact hmillis ▸ Nat.mod_lt _ (by decide)
  · exact reread_eq_floor

end Duration

namespace ClientConfig

/-- The configuration with its timeouts changed. -/
def mapTimeouts (f : Duration → Duration) (c : ClientConfig) : ClientConfig :=
  { c with
    connectionTimeout := f c.connectionTimeout
    operationTimeout := f c.operationTimeout
    responseTimeout := f c.responseTimeout }

end ClientConfig

namespace Config

/-- The configuration with its timeouts changed. -/
def mapTimeouts (f : Duration → Duration) (c : Config) : Config :=
  { c with client := c.client.mapTimeouts f }

theorem readDuration_durationValue (d : Duration) : readDuration (durationValue d) = .ok d.reread := by
  have hlt : (UInt64.ofNat d.millis).toNat < UInt64.size := UInt64.toNat_lt _
  have hnat : (durationValue d).natural? UInt64.size = some (UInt64.ofNat d.millis).toNat :=
    if_pos hlt
  rw [readDuration, hnat, Option.map_some, UInt64.ofNat_toNat]
  rfl

theorem readLevel_word (level : LogLevel) : readLevel (.text level.word) = .ok level := by
  simp only [readLevel, Value.text?, typed, ok_bind, LogLevel.ofText?_word]
  rfl

theorem natural?_toNat (n : UInt32) :
    Value.natural? UInt32.size (.integer n.toNat) = some n.toNat :=
  if_pos n.toNat_lt

theorem readSection_table {σ : Type} (fields : Fields σ) (initial : σ)
    (entries : List (String × Value)) :
    readSection fields initial (.table entries) = entries.foldlM (fun s e =>
      match fields.lookup e.1 with
      | some set => set s e.2
      | none => .ok s) initial :=
  rfl

theorem readSection_clientValue (c initial : ClientConfig) :
    readSection clientFields initial (clientValue c) = .ok (c.mapTimeouts Duration.reread) := by
  simp [clientValue, readSection_table, clientFields, List.lookup_cons, readDuration_durationValue,
    natural?_toNat, Value.text?, typed, ok_bind, ClientConfig.mapTimeouts]

theorem readSection_loggingValue (c initial : LoggingConfig) :
    readSection loggingFields initial (loggingValue c) = .ok c := by
  simp [loggingValue, readSection_table, loggingFields, List.lookup_cons, readLevel_word, Value.text?,
    Value.boolean?, typed, ok_bind]

/-- A configuration comes back from its value with its timeouts as they come back from theirs. -/
theorem ofValue_toValue (c : Config) : ofValue (toValue c) = .ok (c.mapTimeouts Duration.reread) := by
  simp [ofValue, toValue, readSection_table, fields, List.lookup_cons, readSection_clientValue,
    readSection_loggingValue, ok_bind, mapTimeouts]

section Valid

variable {c : Config}

theorem longestConnection_isPassed_iff :
    Limit.longestConnection.IsPassed c ↔ c.client.connectionTimeout.millis < 301000 := by
  simp only [Limit.IsPassed, Duration.millis_lt_iff, Nat.reduceMul]

theorem millis_connection_lt (h : c.violations = []) :
    c.client.connectionTimeout.millis < UInt64.size :=
  Nat.lt_trans (longestConnection_isPassed_iff.mp ((violations_eq_nil_iff c).mp h _)) (by decide)

/-- What comes back of a configuration without violations breaks no limit but the least time for a
message. -/
theorem violations_reread_eq_nil_iff (h : c.violations = []) :
    (c.mapTimeouts Duration.reread).violations = [] ↔
      10 ≤ c.client.operationTimeout.millis % UInt64.size ∧
        100 ≤ c.client.responseTimeout.millis % UInt64.size := by
  have hconnection : c.client.connectionTimeout.reread.millis = c.client.connectionTimeout.millis := by
    rw [Duration.millis_reread, Nat.mod_eq_of_lt (millis_connection_lt h)]
  simp only [violations_eq_nil_iff, ← Duration.millis_reread, ← Duration.le_total_iff]
  constructor
  · intro h'
    exact ⟨h' .shortestOperation, h' .shortestResponse⟩
  · rintro ⟨hoperation, hresponse⟩ l
    have hpassed := (violations_eq_nil_iff c).mp h l
    cases l with
    | address | retries | appName => exact hpassed
    | shortestOperation => exact hoperation
    | shortestResponse => exact hresponse
    | shortestConnection =>
      have hlong : 100 ≤ c.client.connectionTimeout.reread.millis := by
        rw [hconnection]
        exact Duration.le_total_iff.mp hpassed
      exact Duration.le_total_iff.mpr hlong
    | longestConnection =>
      have hshort : c.client.connectionTimeout.reread.millis < 301000 := by
        rw [hconnection]
        exact longestConnection_isPassed_iff.mp hpassed
      exact longestConnection_isPassed_iff.mpr hshort

theorem reread_eq_floor_iff (h : c.violations = []) :
    c.mapTimeouts Duration.reread = c.mapTimeouts Duration.floor ↔
      c.client.operationTimeout.millis < UInt64.size ∧ c.client.responseTimeout.millis < UInt64.size := by
  have hconnection : c.client.connectionTimeout.reread = c.client.connectionTimeout.floor :=
    Duration.reread_eq_floor_iff.mpr (millis_connection_lt h)
  simp only [mapTimeouts, ClientConfig.mapTimeouts, Config.mk.injEq, ClientConfig.mk.injEq,
    hconnection, Duration.reread_eq_floor_iff, true_and, and_true]

end Valid

/-- A configuration without violations comes back from its value with all that is not a timeout, and
with its timeouts in whole milliseconds modulo `2 ^ 64`. It is the same but for the rounding just if the
two timeouts for messages are shorter than `2 ^ 64` milliseconds, and then it has no violations; it has
none either if what is left of them is long enough. -/
theorem valid_config_comes_back {c : Config} (h : c.violations = []) :
    ∃ c', ofValue (toValue c) = .ok c' ∧ c' = c.mapTimeouts Duration.reread ∧
      (c' = c.mapTimeouts Duration.floor ∧ c'.violations = [] ↔
        c.client.operationTimeout.millis < UInt64.size ∧ c.client.responseTimeout.millis < UInt64.size) ∧
      (c'.violations = [] ↔ 10 ≤ c.client.operationTimeout.millis % UInt64.size ∧
        100 ≤ c.client.responseTimeout.millis % UInt64.size) := by
  have hlimits := violations_reread_eq_nil_iff h
  refine ⟨_, ofValue_toValue c, rfl, ?_, hlimits⟩
  rw [reread_eq_floor_iff h]
  refine ⟨And.left, fun hshort => ⟨hshort, hlimits.mpr ?_⟩⟩
  rw [Nat.mod_eq_of_lt hshort.1, Nat.mod_eq_of_lt hshort.2]
  have hpassed := (violations_eq_nil_iff c).mp h
  exact ⟨Duration.le_total_iff.mp (hpassed .shortestOperation),
    Duration.le_total_iff.mp (hpassed .shortestResponse)⟩

/-- A timeout of 1.5009 seconds comes back as one of 1.5 seconds. -/
theorem valid_config_comes_back_rounded :
    let client : ClientConfig := { ClientConfig.default with responseTimeout := ⟨1, 500900000⟩ }
    let c : Config := { Config.default with client := client }
    c.violations = [] ∧ ∃ c', ofValue (toValue c) = .ok c' ∧
      c' = { c with client := { client with responseTimeout := ⟨1, 500000000⟩ } } ∧
      c'.violations = [] := by
  intro client c
  have h : c.violations = [] := by decide +kernel
  obtain ⟨c', hread, hc', -, hlimits⟩ := valid_config_comes_back h
  exact ⟨h, c', hread, hc'.trans (by decide +kernel), hlimits.mpr (by decide +kernel)⟩

/-- A timeout of `2 ^ 64` milliseconds has no violation, and comes back as none at all. -/
theorem long_timeout_comes_back_as_none :
    let c : Config := { Config.default with
      client := { ClientConfig.default with operationTimeout := ⟨18446744073709551, 616000000⟩ } }
    c.violations = [] ∧ ∃ c', ofValue (toValue c) = .ok c' ∧
      c'.client.operationTimeout = ⟨0, 0⟩ ∧ c' ≠ c.mapTimeouts Duration.floor ∧
      c'.violations = [.operationTimeoutShort] := by
  intro c
  exact ⟨by decide +kernel, _, ofValue_toValue c, by decide +kernel, by decide +kernel,
    by decide +kernel⟩

end Config

end Courier
