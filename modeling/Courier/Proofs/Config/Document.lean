import Courier.Config.Document
import Courier.Proofs.Config.Record
import Courier.Proofs.Text.Decoding
import Courier.Proofs.Toml.Sections

namespace Courier

open Courier.Toml

/-- A duration is written like its value, in whole milliseconds. -/
def Duration.plain (d : Duration) : Plain :=
  .natural (UInt64.ofNat d.millis).toNat

namespace Config

/-- A configuration as the tables of a document, with every field set. -/
def sections (c : Config) : List Section :=
  [⟨"client", [("address", .text c.client.address),
      ("connection_timeout", c.client.connectionTimeout.plain),
      ("operation_timeout", c.client.operationTimeout.plain),
      ("response_timeout", c.client.responseTimeout.plain),
      ("max_crc_retries", .natural c.client.maxRetries.toNat)]⟩,
    ⟨"logging", [("app_name", .text c.logging.appName), ("log_level", .text c.logging.level.word),
      ("json_format", .boolean c.logging.json)]⟩]

def document (c : Config) : String :=
  String.ofList (writeLines (sectionLines c.sections))

/-- The texts need no escapes, and no timeout is too large for a document's numbers. -/
structure IsWritable (c : Config) : Prop where
  address : (Plain.text c.client.address).IsWritable
  connectionTimeout : c.client.connectionTimeout.plain.IsWritable
  operationTimeout : c.client.operationTimeout.plain.IsWritable
  responseTimeout : c.client.responseTimeout.plain.IsWritable
  appName : (Plain.text c.logging.appName).IsWritable

theorem sections_values (c : Config) : .table (c.sections.map Section.value) = toValue c :=
  rfl

theorem isWritable_word (level : LogLevel) : (Plain.text level.word).IsWritable := by
  cases level <;> decide

theorem IsWritable.sections {c : Config} (h : c.IsWritable) : ∀ s ∈ c.sections, s.IsWritable := by
  have hretries : (Plain.natural c.client.maxRetries.toNat).IsWritable := by
    have hlt := c.client.maxRetries.toNat_lt
    change _ ≤ maxInteger
    unfold maxInteger
    omega
  have hclient : IsBareKey "client" := by decide
  have hlogging : IsBareKey "logging" := by decide
  rw [Config.sections, List.forall_mem_cons, List.forall_mem_singleton]
  constructor
  · refine ⟨hclient, ?_, ?_⟩
    · simp only [List.forall_mem_cons]
      exact ⟨⟨by decide, h.address⟩, ⟨by decide, h.connectionTimeout⟩,
        ⟨by decide, h.operationTimeout⟩, ⟨by decide, h.responseTimeout⟩, ⟨by decide, hretries⟩,
        by simp⟩
    · simp
  · refine ⟨hlogging, ?_, ?_⟩
    · simp only [List.forall_mem_cons]
      exact ⟨⟨by decide, h.appName⟩, ⟨by decide, isWritable_word _⟩, ⟨by decide, trivial⟩, by simp⟩
    · simp

/-- A configuration comes back from its document with its timeouts as they come back from theirs. -/
theorem ofToml_document {c : Config} (h : c.IsWritable) :
    ofToml c.document = .ok (c.mapTimeouts Duration.reread) := by
  have hparse : parse? c.document = some (toValue c) :=
    parse?_sections h.sections (by simp [Config.sections])
  rw [ofToml, hparse]
  exact ofValue_toValue c

/-- A file comes to a configuration just if it holds the bytes of a document that does. -/
theorem ofFile_eq_ok_iff {content : Option Bytes} {c : Config} :
    ofFile content = .ok c ↔ ∃ text, content = some (Text.Utf8.bytes text) ∧ ofToml text = .ok c := by
  constructor
  · intro h
    cases content with
    | none => cases h
    | some bytes =>
      simp only [ofFile] at h
      split at h
      · cases h
      · rename_i cs hcs
        refine ⟨String.ofList cs, ?_, ?_⟩
        · rw [Text.Utf8.bytes, String.toList_ofList, Text.Utf8.decode?_eq_some_iff.mp hcs]
        · cases hread : ofToml (String.ofList cs) with
          | ok c' =>
            rw [hread] at h
            cases h
            rfl
          | error fault =>
            rw [hread] at h
            cases h
  · rintro ⟨text, rfl, htext⟩
    have hdecode : Text.Utf8.decode? (Text.Utf8.bytes text) = some text.toList :=
      Text.Utf8.decode?_eq_some_iff.mpr rfl
    simp only [ofFile, hdecode, String.ofList_toList, htext]
    rfl

theorem exampleDocument_eq : exampleDocument = document default := by
  decide +kernel

/-- The example sets what is the default anyway. -/
theorem ofToml_exampleDocument : ofToml exampleDocument = .ok default := by
  have hdefault : IsWritable default := by
    constructor <;> decide +kernel
  rw [exampleDocument_eq, ofToml_document hdefault]
  decide +kernel

end Config

end Courier
