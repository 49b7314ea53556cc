import Courier.Proofs.Toml.Document

namespace Courier.Toml

namespace Node

variable {name key : String} {implied dotted : Bool} {before entries : List (String × Node)}

theorem toValue_leaf (v : Value) : (leaf v).toValue = v := by
  rw [toValue]

theorem toValue_table (implied dotted : Bool) (entries : List (String × Node)) :
    (table implied dotted entries).toValue = .table (entries.map fun e => (e.1, e.2.toValue)) := by
  rw [toValue]
  congr 1
  calc entries.attach.map (fun x => (x.val.1, x.val.2.toValue))
      = (entries.attach.map Subtype.val).map fun e => (e.1, e.2.toValue) := by
        rw [List.map_map]
        rfl
    _ = entries.map fun e => (e.1, e.2.toValue) := by rw [List.attach_map_subtype_val]

theorem lookup_eq_none (h : ∀ e ∈ entries, e.1 ≠ name) : entries.lookup name = none := by
  rw [List.lookup_eq_none_iff]
  intro e he
  exact bne_iff_ne.mpr (h e he).symm

theorem lookup_last (h : ∀ e ∈ before, e.1 ≠ name) (node : Node) :
    (before ++ [(name, node)]).lookup name = some node := by
  rw [List.lookup_append, lookup_eq_none h]
  simp

theorem replace_last (h : ∀ e ∈ before, e.1 ≠ name) (node made : Node) :
    replace name made (before ++ [(name, node)]) = before ++ [(name, made)] := by
  have hbefore : before.map (fun e => if e.1 = name then (name, made) else e) = before := by
    calc before.map (fun e => if e.1 = name then (name, made) else e)
        = before.map id := List.map_congr_left fun e he => if_neg (h e he)
      _ = before := List.map_id before
  simp [replace, hbefore]

/-- A table that is not there yet is opened behind those that are. -/
theorem openTable_new (h : ∀ e ∈ entries, e.1 ≠ name) :
    openTable [] name (.table implied dotted entries) =
      some (.table implied dotted (entries ++ [(name, .table false false [])])) := by
  simp only [openTable, update, lookup_eq_none h]

/-- A value is set in the table that was opened last. -/
theorem insert_last {v : Value} (h : ∀ e ∈ before, e.1 ≠ name) (hkey : ∀ e ∈ entries, e.1 ≠ key) :
    update false (insert [] key v) [name]
        (.table false false (before ++ [(name, .table false false entries)])) =
      some (.table false false
        (before ++ [(name, .table false false (entries ++ [(key, .leaf v)]))])) := by
  simp [update, insert, lookup_last h, lookup_eq_none hkey, replace_last h]

end Node

/-- A table of a document: its name, and the values that are set in it. -/
structure Section where
  name : String
  entries : List (String × Plain)

namespace Section

/-- The table under its name, as it is read. -/
def value (s : Section) : String × Value :=
  (s.name, .table (s.entries.map fun e => (e.1, e.2.value)))

/-- The header, and a line for each value. -/
def lines (s : Section) : List Line :=
  .header s.name :: s.entries.map fun e => .entry e.1 e.2

/-- All that is written is read as it is, and nothing is set twice. -/
structure IsWritable (s : Section) : Prop where
  name : IsBareKey s.name
  entries : ∀ e ∈ s.entries, IsBareKey e.1 ∧ e.2.IsWritable
  keys : (s.entries.map Prod.fst).Nodup

/-- The table with the values, and its name. -/
def node (s : Section) : String × Node :=
  (s.name, .table false false (s.entries.map fun e => (e.1, .leaf e.2.value)))

theorem toValue_node (s : Section) : (s.node.1, s.node.2.toValue) = s.value := by
  simp [node, value, Node.toValue_table, Node.toValue_leaf, Function.comp_def]

theorem lines_isWritable {s : Section} (h : s.IsWritable) : ∀ l ∈ s.lines, l.IsWritable := by
  intro l hl
  rcases List.mem_cons.mp hl with rfl | hl
  · exact h.name
  · obtain ⟨e, he, rfl⟩ := List.mem_map.mp hl
    exact h.entries e he

/-- Values that are not yet set are set one after the other in the table that is open. -/
theorem foldlM_entries {name : String} {before : List (String × Node)}
    (h : ∀ e ∈ before, e.1 ≠ name) (done es : List (String × Plain))
    (hkeys : ((done ++ es).map Prod.fst).Nodup) :
    (es.map fun e => Line.entry e.1 e.2).foldlM Line.enter?
        ⟨.table false false (before ++ [Section.node ⟨name, done⟩]), [name]⟩ =
      some ⟨.table false false (before ++ [Section.node ⟨name, done ++ es⟩]), [name]⟩ := by
  induction es generalizing done with
  | nil => simp
  | cons e es ih =>
    have hfresh : ∀ d ∈ done.map fun d => (d.1, Node.leaf d.2.value), d.1 ≠ e.1 := by
      rw [List.map_append, List.map_cons] at hkeys
      obtain ⟨-, -, hdisjoint⟩ := List.nodup_append.mp hkeys
      rintro d hd
      obtain ⟨f, hf, rfl⟩ := List.mem_map.mp hd
      exact hdisjoint f.1 (List.mem_map_of_mem hf) e.1 (.head _)
    rw [List.map_cons, List.foldlM_cons, Line.enter?, node, Node.insert_last h hfresh]
    have hmore := ih (done ++ [e]) (by simpa using hkeys)
    rw [List.append_assoc, List.singleton_append] at hmore
    rw [← hmore]
    simp [node]

/-- A table that is not there yet is opened and filled. -/
theorem foldlM_lines {s : Section} (h : s.IsWritable) {before : List (String × Node)}
    {current : List String} (hs : ∀ e ∈ before, e.1 ≠ s.name) :
    s.lines.foldlM Line.enter? ⟨.table false false before, current⟩ =
      some ⟨.table false false (before ++ [s.node]), [s.name]⟩ := by
  have hentries := foldlM_entries hs [] s.entries h.keys
  rw [lines, List.foldlM_cons, Line.enter?, Node.openTable_new hs]
  exact hentries

end Section

/-- Tables that are written one after the other, with an empty line before each but the first. -/
def sectionLines : List Section → List Line
  | [] => []
  | s :: ss => s.lines ++ ss.flatMap fun s => .blank :: s.lines

theorem sectionLines_isWritable {ss : List Section} (h : ∀ s ∈ ss, s.IsWritable) :
    ∀ l ∈ sectionLines ss, l.IsWritable := by
  intro l hl
  cases ss with
  | nil => cases hl
  | cons s ss =>
    obtain ⟨hs, hss⟩ := List.forall_mem_cons.mp h
    rcases List.mem_append.mp hl with hl | hl
    · exact Section.lines_isWritable hs l hl
    · obtain ⟨t, ht, hl⟩ := List.mem_flatMap.mp hl
      rcases List.mem_cons.mp hl with rfl | hl
      · trivial
      · exact Section.lines_isWritable (hss t ht) l hl

/-- Tables with new names are read one after the other. -/
theorem foldlM_sections {ss : List Section} (h : ∀ s ∈ ss, s.IsWritable) (done : List Section)
    (hnames : ((done ++ ss).map Section.name).Nodup) (current : List String) :
    ∃ last, (ss.flatMap fun s => .blank :: s.lines).foldlM Line.enter?
        ⟨.table false false (done.map Section.node), current⟩ =
      some ⟨.table false false ((done ++ ss).map Section.node), last⟩ := by
  induction ss generalizing done current with
  | nil => exact ⟨current, by simp⟩
  | cons s ss ih =>
    obtain ⟨hs, hss⟩ := List.forall_mem_cons.mp h
    have hfresh : ∀ e ∈ done.map Section.node, e.1 ≠ s.name := by
      rw [List.map_append, List.map_cons] at hnames
      obtain ⟨-, -, hdisjoint⟩ := List.nodup_append.mp hnames
      rintro e he
      obtain ⟨t, ht, rfl⟩ := List.mem_map.mp he
      exact hdisjoint t.name (List.mem_map_of_mem ht) s.name (.head _)
    obtain ⟨last, hlast⟩ := ih hss (done ++ [s]) (by simpa using hnames) [s.name]
    refine ⟨last, ?_⟩
    rw [List.map_append, List.append_assoc, List.singleton_append] at hlast
    rw [List.flatMap_cons, List.cons_append, List.foldlM_cons, Line.enter?]
    change (s.lines ++ _).foldlM Line.enter? _ = _
    rw [List.foldlM_append, Section.foldlM_lines hs hfresh]
    exact hlast

/-- A document of tables is read as these tables, if no two of them have the same name. -/
theorem parse?_sections {ss : List Section} (h : ∀ s ∈ ss, s.IsWritable)
    (hnames : (ss.map Section.name).Nodup) :
    parse? (String.ofList (writeLines (sectionLines ss))) = some (.table (ss.map Section.value)) := by
  have hread : ∃ last, (sectionLines ss).foldlM Line.enter? ⟨Node.root, []⟩ =
      some ⟨.table false false (ss.map Section.node), last⟩ := by
    cases ss with
    | nil => exact ⟨[], rfl⟩
    | cons s ss =>
      obtain ⟨hs, hss⟩ := List.forall_mem_cons.mp h
      obtain ⟨last, hlast⟩ := foldlM_sections hss [s] hnames [s.name]
      refine ⟨last, ?_⟩
      rw [sectionLines, List.foldlM_append]
      have hfirst : s.lines.foldlM Line.enter? ⟨.table false false [], []⟩ =
          some ⟨.table false false [s.node], [s.name]⟩ := Section.foldlM_lines hs (by simp)
      rw [Node.root, hfirst]
      exact hlast
  obtain ⟨last, hlast⟩ := hread
  rw [parse?_writeLines (sectionLines_isWritable h), hlast, Option.map_some, Node.toValue_table,
    List.map_map]
  congr 2
  exact List.map_congr_left fun s _ => s.toValue_node

end Courier.Toml
