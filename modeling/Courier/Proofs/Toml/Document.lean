import Courier.Proofs.Toml.Parser
import Courier.Toml.Document

namespace Courier.Toml

open Courier.Toml.Parser

/-- A value that stands on one line as it is. -/
inductive Plain where
  | text (s : String)
  | natural (n : Nat)
  | boolean (b : Bool)

namespace Plain

def value : Plain → Value
  | text s => .text s
  | natural n => .integer n
  | boolean b => .boolean b

def write : Plain → List Char
  | text s => '"' :: (s.toList ++ ['"'])
  | natural n => Nat.toDigits 10 n
  | boolean true => "true".toList
  | boolean false => "false".toList

/-- Text needs no escapes, and a number is not too large. -/
def IsWritable : Plain → Prop
  | text s => ∀ c ∈ s.toList, isText c ∧ c ≠ '"' ∧ c ≠ '\\'
  | natural n => n ≤ maxInteger
  | boolean _ => True

instance (v : Plain) : Decidable v.IsWritable :=
  match v with
  | text s => List.decidableBAll (fun c => isText c ∧ c ≠ '"' ∧ c ≠ '\\') s.toList
  | natural n => inferInstanceAs (Decidable (n ≤ maxInteger))
  | boolean _ => isTrue trivial

end Plain

section Numbers

variable {c : Char} {cs ds rest : List Char} {n : Nat}

theorem isDigit_iff : isDigit c ↔ c.isDigit := by
  simp [isDigit, Char.isDigit, Char.le_def, UInt32.le_iff_toNat_le]

theorem isDigit_of_mem_toDigits (h : c ∈ Nat.toDigits 10 n) : isDigit c :=
  isDigit_iff.mpr (Nat.isDigit_of_mem_toDigits (by decide) (by decide) h)

/-- The digits of a number start with a zero only if it is zero. -/
theorem head_toDigits_ne (h : n ≠ 0) : (Nat.toDigits 10 n).head? ≠ some '0' := by
  induction n using Nat.strongRecOn with
  | ind n ih =>
    rcases Nat.lt_or_ge n 10 with hlt | hge
    · rw [Nat.toDigits_of_lt_base hlt]
      have hdigits : ∀ m < 10, m ≠ 0 → [m.digitChar].head? ≠ some '0' := by decide
      exact hdigits n hlt h
    · rw [Nat.toDigits_of_base_le (by decide) hge]
      have htens := ih (n / 10) (by omega) (by omega)
      cases hd : Nat.toDigits 10 (n / 10) with
      | nil => exact absurd hd Nat.toDigits_ne_nil
      | cons d ds =>
        rw [hd] at htens
        exact htens

theorem ofDigits_eq (h : ∀ d ∈ ds, isDigit d) (m : Nat) :
    ds.foldl (fun n d => n * 10 + (hexValue? d).getD 0) m = Nat.ofDigitChars 10 ds m := by
  induction ds generalizing m with
  | nil => rfl
  | cons d ds ih =>
    obtain ⟨hd, hds⟩ := List.forall_mem_cons.mp h
    have hvalue : hexValue? d = some (d.toNat - 48) := if_pos hd
    rw [List.foldl_cons, ih hds, Nat.ofDigitChars_cons, hvalue, Nat.mul_comm 10 m]
    rfl

theorem ofDigits_toDigits (n : Nat) : ofDigits 10 (Nat.toDigits 10 n) = n := by
  rw [ofDigits, ofDigits_eq fun d hd => isDigit_of_mem_toDigits hd, Nat.ofDigitChars_ten_toDigits]

/-- What is left of digits at the end of a line when some of them are taken. -/
def IsLineEnd (left rest : List Char) : Prop :=
  ∃ es, (∀ d ∈ es, isDigit d) ∧ left = es ++ '\n' :: rest

theorem IsLineEnd.char_eq (h : IsLineEnd cs rest) (hc : isDigit c = false) (hn : c ≠ '\n') :
    char c cs = none := by
  obtain ⟨es, hes, rfl⟩ := h
  cases es with
  | nil => exact char_of_ne hn.symm
  | cons d es =>
    apply char_of_ne
    rintro rfl
    rw [hes d (.head _)] at hc
    cases hc

/-- However many digits are taken, what is left is digits at the end of the line. -/
theorem IsLineEnd.mapM_satisfy (h : IsLineEnd cs rest) (k : Nat) {r : List Char × List Char}
    (hr : (List.replicate k ()).mapM (fun _ => satisfy isDigit) cs = some r) :
    IsLineEnd r.2 rest := by
  induction k generalizing cs r with
  | zero =>
    cases hr
    exact h
  | succ k ih =>
    rw [List.replicate_succ, List.mapM_cons, Parser.bind_eq] at hr
    obtain ⟨⟨d, left⟩, hd, hr⟩ := Option.bind_eq_some_iff.mp hr
    rw [Parser.bind_eq] at hr
    obtain ⟨⟨ds, left'⟩, hds, hr⟩ := Option.bind_eq_some_iff.mp hr
    obtain rfl := Option.some.inj hr
    have hleft : IsLineEnd left rest := by
      obtain ⟨es, hes, rfl⟩ := h
      cases es with
      | nil => cases hd
      | cons e es =>
        have he : satisfy isDigit (e :: (es ++ '\n' :: rest)) = some (e, es ++ '\n' :: rest) :=
          if_pos (hes e (.head _))
        cases he.symm.trans hd
        exact ⟨es, fun d hd => hes d (.tail _ hd), rfl⟩
    exact ih hleft (r := (ds, left')) hds

/-- Where a sign is wanted after digits, the end of the line is none. -/
theorem IsLineEnd.digitsIn_bind {α : Type} (h : IsLineEnd cs rest) (k low high : Nat)
    {f : Nat → Unit → Parser α} (hc : isDigit c = false) (hn : c ≠ '\n') :
    (digitsIn k low high >>= fun m => char c >>= f m) cs = none := by
  rw [Parser.bind_eq]
  cases hdigits : digitsIn k low high cs with
  | none => rfl
  | some r =>
    have hleft : IsLineEnd r.2 rest := by
      unfold digitsIn at hdigits
      rw [Parser.bind_eq] at hdigits
      obtain ⟨⟨ds, left⟩, hds, hr⟩ := Option.bind_eq_some_iff.mp hdigits
      simp only at hr
      split at hr
      · cases hr
        exact h.mapM_satisfy k hds
      · cases hr
    exact bind_of_none (hleft.char_eq hc hn)

theorem IsLineEnd.moment_eq (h : IsLineEnd cs rest) : moment cs = none := by
  have hdate : date cs = none := h.digitsIn_bind 4 0 9999 (by decide) (by decide)
  have htime : time cs = none := h.digitsIn_bind 2 0 23 (by decide) (by decide)
  unfold moment
  rw [orElse_eq, bind_of_none hdate, bind_of_none htime]
  rfl

/-- Digits have no sign before them. -/
theorem reads_sign (hc : isDigit c) : sign.Reads [] false (c :: cs) := by
  apply reads_peek_bind
  rw [List.nil_append, List.head?_cons]
  split
  · rename_i h
    cases h
    cases hc
  · rename_i h
    cases h
    cases hc
  · rfl

/-- A number begins with a digit. -/
theorem exists_toDigits (n : Nat) :
    ∃ d ds, Nat.toDigits 10 n = d :: ds ∧ isDigit d ∧ (d = '0' → ds = []) := by
  cases hds : Nat.toDigits 10 n with
  | nil => exact absurd hds Nat.toDigits_ne_nil
  | cons d ds =>
    refine ⟨d, ds, rfl, isDigit_of_mem_toDigits (n := n) (by simp [hds]), ?_⟩
    rintro rfl
    by_cases hn : n = 0
    · subst hn
      cases hds
      rfl
    · have hfirst := head_toDigits_ne hn
      rw [hds] at hfirst
      exact absurd rfl hfirst

theorem sign_toDigits (n : Nat) (c : Char) (rest : List Char) :
    sign.Reads [] false (Nat.toDigits 10 n ++ c :: rest) := by
  obtain ⟨d, ds, hds, hd, -⟩ := exists_toDigits n
  rw [hds]
  exact reads_sign hd

/-- Decimal digits up to the end of the line. -/
theorem reads_digitRun (hds : ∀ d ∈ ds, isDigit d) (hne : ds ≠ []) :
    (digitRun isDigit).Reads ds ds ('\n' :: rest) := by
  cases ds with
  | nil => exact absurd rfl hne
  | cons d ds =>
    obtain ⟨hd, hds⟩ := List.forall_mem_cons.mp hds
    have hmore : (many do let _ ← maybe (char '_'); satisfy isDigit).Reads ds ds ('\n' :: rest) := by
      apply reads_many _ hds rfl
      intro e rest he
      have hnone : (maybe (char '_')).Reads [] none (e :: rest) := by
        apply maybe_of_none
        apply char_of_ne
        rintro rfl
        cases he
      exact hnone.bind (s := []) (t := [e]) (reads_satisfy he)
    exact (reads_satisfy hd).bind (s := [d]) (hmore.bind_pure (d :: ·))

theorem reads_decimalDigits (n : Nat) :
    decimalDigits.Reads (Nat.toDigits 10 n) (Nat.toDigits 10 n) ('\n' :: rest) := by
  by_cases hn : n = 0
  · subst hn
    rfl
  · have hfirst := head_toDigits_ne hn
    have hrun : (digitRun isDigit).Reads (Nat.toDigits 10 n) (Nat.toDigits 10 n) ('\n' :: rest) :=
      reads_digitRun (fun d hd => isDigit_of_mem_toDigits hd) Nat.toDigits_ne_nil
    apply reads_peek_bind
    split
    · rename_i hzero
      cases hd : Nat.toDigits 10 n with
      | nil => exact absurd hd Nat.toDigits_ne_nil
      | cons d ds =>
        rw [hd] at hfirst hzero
        exact absurd hzero hfirst
    · exact hrun

theorem float_of_digits (n : Nat) : float (Nat.toDigits 10 n ++ '\n' :: rest) = none := by
  have hsign := sign_toDigits n '\n' rest
  have hfraction : (maybe fraction).Reads [] none ('\n' :: rest) :=
    maybe_of_none (bind_of_none (char_of_ne (by decide)))
  have hexponent : (maybe exponent).Reads [] none ('\n' :: rest) :=
    maybe_of_none (bind_of_none (satisfy_of_not rfl))
  unfold float
  rw [hsign.skip, (reads_decimalDigits n).bind_eq, hfraction.skip, hexponent.skip]
  rfl

theorem special_of_digits (n : Nat) : special (Nat.toDigits 10 n ++ '\n' :: rest) = none := by
  unfold special
  rw [(sign_toDigits n '\n' rest).skip]
  apply bind_of_none
  obtain ⟨d, ds, hds, hd, -⟩ := exists_toDigits n
  have hne (c : Char) (hc : isDigit c = false) : d ≠ c := by
    rintro rfl
    rw [hd] at hc
    cases hc
  rw [hds, List.cons_append, orElse_of_none (literal_of_ne (c := 'i') rfl (hne 'i' rfl))]
  exact literal_of_ne (c := 'n') rfl (hne 'n' rfl)

/-- A base is announced by a zero and a letter, and no decimal goes on after a zero. -/
theorem based_of_digits (n : Nat) (rest : List Char) {mark : Char} (hmark : mark ≠ '\n') (base : Nat) :
    based (String.ofList ['0', mark]) base (Nat.toDigits 10 n ++ '\n' :: rest) = none := by
  apply bind_of_none
  obtain ⟨d, ds, hds, hd, hzero⟩ := exists_toDigits n
  rw [hds, List.cons_append]
  by_cases h : d = '0'
  · rw [h, hzero h]
    have hfirst : (char '0').Reads ['0'] () ('\n' :: rest) := reads_char '0'
    unfold literal
    rw [String.toList_ofList]
    change (char '0' >>= fun _ => [mark].forM char) (['0'] ++ '\n' :: rest) = none
    rw [hfirst.bind_eq]
    exact bind_of_none (char_of_ne hmark.symm)
  · exact literal_of_ne (by rw [String.toList_ofList]; rfl) h

theorem reads_decimal (h : n ≤ maxInteger) :
    decimal.Reads (Nat.toDigits 10 n) (.integer n) ('\n' :: rest) := by
  unfold Reads decimal
  rw [(sign_toDigits n '\n' rest).skip, (reads_decimalDigits n).bind_eq, ofDigits_toDigits]
  simp only [Bool.false_eq_true, if_false, if_pos h]
  rfl

/-- A number is read up to the end of its line. -/
theorem reads_number (h : n ≤ maxInteger) :
    number.Reads (Nat.toDigits 10 n) (.integer n) ('\n' :: rest) := by
  have hend : IsLineEnd (Nat.toDigits 10 n ++ '\n' :: rest) rest :=
    ⟨_, fun d hd => isDigit_of_mem_toDigits hd, rfl⟩
  have hexadecimal : based "0x" 16 (Nat.toDigits 10 n ++ '\n' :: rest) = none :=
    based_of_digits n rest (by decide) 16
  have octal : based "0o" 8 (Nat.toDigits 10 n ++ '\n' :: rest) = none :=
    based_of_digits n rest (by decide) 8
  have binary : based "0b" 2 (Nat.toDigits 10 n ++ '\n' :: rest) = none :=
    based_of_digits n rest (by decide) 2
  unfold Reads number integer
  rw [orElse_of_none hend.moment_eq, orElse_of_none (float_of_digits n),
    orElse_of_none (special_of_digits n), orElse_of_none hexadecimal, orElse_of_none octal,
    orElse_of_none binary]
  exact reads_decimal h

end Numbers

section Values

variable {s rest : List Char} {v : Plain}

/-- Text that needs no escapes. -/
theorem reads_basic (hs : ∀ c ∈ s, isText c ∧ c ≠ '"' ∧ c ≠ '\\') :
    basic.Reads ('"' :: (s ++ ['"'])) (String.ofList s) rest := by
  have hescaped {c : Char} {cs : List Char} (hc : c ≠ '\\') : escaped (c :: cs) = none :=
    bind_of_none (char_of_ne hc)
  have hmany : (many (escaped <|> satisfy fun c => isText c && c != '"' && c != '\\')).Reads s s
      (['"'] ++ rest) := by
    have hplain (c : Char) (hc : c ∈ s) : (isText c && c != '"' && c != '\\') = true := by
      obtain ⟨htext, hquote, hslash⟩ := hs c hc
      simp [htext, hquote, hslash]
    apply reads_many _ hplain
    · rw [List.singleton_append, orElse_of_none (hescaped (by decide))]
      exact satisfy_of_not rfl
    · intro c cs hc
      have hslash : c ≠ '\\' := by
        simp only [Bool.and_eq_true, bne_iff_ne] at hc
        exact hc.2
      rw [orElse_of_none (hescaped hslash)]
      exact reads_satisfy hc
  exact (reads_char '"').bind (s := ['"']) (hmany.bind ((reads_char '"').bind_pure fun _ => _))

/-- A text on one line does not begin like one on many. -/
theorem basicBlock_of_basic (hs : ∀ c ∈ s, c ≠ '"') :
    basicBlock ('"' :: (s ++ ['"']) ++ '\n' :: rest) = none := by
  apply bind_of_none
  unfold literal
  rw [String.toList_ofList]
  cases s with
  | nil => rfl
  | cons c s =>
    change (char '"' >>= fun _ => ['"', '"'].forM char)
      (['"'] ++ (c :: (s ++ ['"'] ++ '\n' :: rest))) = none
    rw [(reads_char '"').bind_eq]
    exact bind_of_none (char_of_ne (hs c (.head _)))

theorem reads_scalarValue (h : v.IsWritable) (nested : Parser Value) :
    (value.scalarValue nested).Reads v.write v.value ('\n' :: rest) := by
  apply reads_peek_bind
  cases v with
  | text s =>
    have hread : (basicBlock <|> basic).Reads ('"' :: (s.toList ++ ['"'])) s ('\n' :: rest) := by
      have hbasic : basic.Reads ('"' :: (s.toList ++ ['"'])) (String.ofList s.toList)
          ('\n' :: rest) := reads_basic h
      rw [String.ofList_toList] at hbasic
      unfold Reads
      rw [orElse_of_none (basicBlock_of_basic fun c hc => (h c hc).2.1)]
      exact hbasic
    exact hread.bind_pure Value.text
  | natural n =>
    obtain ⟨d, ds, hds, hd, -⟩ := exists_toDigits n
    have hnumber : number.Reads (Nat.toDigits 10 n) (.integer n) ('\n' :: rest) := reads_number h
    simp only [Plain.write, hds, List.cons_append, List.head?_cons]
    rw [hds] at hnumber
    have hne {c : Char} (hc : isDigit c = false) : some d ≠ some c := by
      rintro ⟨⟩
      rw [hd] at hc
      cases hc
    split
    · exact absurd ‹some d = some '"'› (hne rfl)
    · exact absurd ‹some d = some '\''› (hne rfl)
    · exact absurd ‹some d = some '['› (hne rfl)
    · exact absurd ‹some d = some '\x7b'› (hne rfl)
    · exact absurd ‹some d = some 't'› (hne rfl)
    · exact absurd ‹some d = some 'f'› (hne rfl)
    · exact hnumber
  | boolean b =>
    cases b with
    | true => exact (reads_literal "true").bind_pure fun _ => Value.boolean true
    | false => exact (reads_literal "false").bind_pure fun _ => Value.boolean false

/-- What is written on one line as it is is read so. -/
theorem reads_value (h : v.IsWritable) :
    (value depthLimit).Reads v.write v.value ('\n' :: rest) :=
  reads_scalarValue h _

end Values

/-- A name that needs no quotes. -/
def IsBareKey (name : String) : Prop :=
  name.toList ≠ [] ∧ ∀ c ∈ name.toList, isBare c

instance (name : String) : Decidable (IsBareKey name) :=
  haveI := List.decidableBAll (fun c => isBare c) name.toList
  inferInstanceAs (Decidable (_ ∧ _))

theorem IsBareKey.head?_eq {name : String} (h : IsBareKey name) (rest : List Char) :
    ∃ c, isBare c ∧ (name.toList ++ rest).head? = some c := by
  obtain ⟨hne, hbare⟩ := h
  cases hname : name.toList with
  | nil => exact absurd hname hne
  | cons c cs => exact ⟨c, hbare c (by simp [hname]), rfl⟩

/-- A line that sets one value, opens one table, or is empty. -/
inductive Line where
  | blank
  | header (name : String)
  | entry (name : String) (value : Plain)

namespace Line

def write : Line → List Char
  | blank => ['\n']
  | header name => '[' :: (name.toList ++ [']', '\n'])
  | entry name v => name.toList ++ ([' '] ++ (['=', ' '] ++ (v.write ++ ['\n'])))

def IsWritable : Line → Prop
  | blank => True
  | header name => IsBareKey name
  | entry name v => IsBareKey name ∧ v.IsWritable

/-- What the line does to the tables, unless they do not admit it. -/
def enter? (p : Progress) : Line → Option Progress
  | blank => some p
  | header name => (p.tables.openTable [] name).map fun tables => ⟨tables, [name]⟩
  | entry name v =>
    (Node.update false (Node.insert [] name v.value) p.current p.tables).map fun tables =>
      { p with tables }

end Line

section Lines

variable {s blanks rest : List Char} {name : String}

theorem reads_spaces (hs : ∀ c ∈ s, isSpace c) (hrest : ∀ c ∈ rest.head?, isSpace c = false) :
    spaces.Reads s () rest :=
  (reads_takeWhile hs hrest).bind_pure fun _ => ()

theorem reads_newline : newline.Reads ['\n'] () rest := by
  have hnone : (maybe (char '\r')).Reads [] none ('\n' :: rest) := maybe_of_none rfl
  exact hnone.bind (s := []) (reads_char '\n')

theorem reads_trailing : trailing.Reads ['\n'] () rest := by
  have hspaces : spaces.Reads [] () ('\n' :: rest) := reads_spaces (by simp) (by simp [isSpace])
  have hcomment : (maybe comment).Reads [] none ('\n' :: rest) := maybe_of_none rfl
  exact hspaces.bind (s := []) (hcomment.bind (s := []) reads_newline)

theorem isBare_ne {c d : Char} (hc : isBare c) (hd : isBare d = false) : c ≠ d := by
  rintro rfl
  rw [hc] at hd
  cases hd

theorem isSpace_of_isBare {c : Char} (h : isBare c) : isSpace c = false := by
  unfold isSpace
  simp [isBare_ne h (d := ' ') rfl, isBare_ne h (d := '\t') rfl]

theorem isBare_of_isSpace {c : Char} (h : isSpace c) : isBare c = false := by
  cases hbare : isBare c with
  | false => rfl
  | true =>
    rw [isSpace_of_isBare hbare] at h
    cases h

theorem reads_simpleKey (hname : IsBareKey name) (hrest : ∀ c ∈ rest.head?, isBare c = false) :
    simpleKey.Reads name.toList name rest := by
  obtain ⟨hne, hbare⟩ := hname
  have htaken : (takeWhile isBare).Reads name.toList name.toList rest := reads_takeWhile hbare hrest
  have hmore : (takeWhile isBare >>= fun cs =>
      if cs.isEmpty then failure else pure (String.ofList cs)).Reads name.toList name rest := by
    unfold Reads
    rw [htaken.bind_eq, if_neg (by simpa using hne), String.ofList_toList]
    rfl
  obtain ⟨c, hc, hfirst⟩ := IsBareKey.head?_eq ⟨hne, hbare⟩ rest
  apply reads_peek_bind
  rw [hfirst]
  split
  · rename_i h
    cases h
    cases hc
  · rename_i h
    cases h
    cases hc
  · exact hmore

/-- A name that is not dotted, with blanks behind it. -/
theorem reads_key (hname : IsBareKey name) (hblanks : ∀ c ∈ blanks, isSpace c)
    (hrest : ∀ c ∈ rest.head?, isBare c = false ∧ isSpace c = false ∧ c ≠ '.') :
    key.Reads (name.toList ++ blanks) ([], name) rest := by
  have hbefore : spaces.Reads [] () (name.toList ++ (blanks ++ rest)) := by
    refine reads_spaces (by simp) ?_
    obtain ⟨c, hc, hfirst⟩ := hname.head?_eq (blanks ++ rest)
    rw [hfirst]
    rintro d ⟨⟩
    exact isSpace_of_isBare hc
  have hkey : simpleKey.Reads name.toList name (blanks ++ rest) := by
    apply reads_simpleKey hname
    cases blanks with
    | nil => exact fun c hc => (hrest c hc).1
    | cons b blanks =>
      rintro c ⟨⟩
      exact isBare_of_isSpace (hblanks _ (.head _))
  have hafter : spaces.Reads blanks () rest :=
    reads_spaces hblanks fun c hc => (hrest c hc).2.1
  have hpart : (spaces *> simpleKey <* spaces).Reads (name.toList ++ blanks) name rest := by
    simp only [seqLeft_eq_bind, seqRight_eq_bind]
    have hfirst : (spaces >>= fun _ => simpleKey).Reads name.toList name (blanks ++ rest) :=
      hbefore.bind (s := []) hkey
    exact hfirst.bind (hafter.bind_pure fun _ => name)
  have hdot : char '.' rest = none := by
    cases rest with
    | nil => rfl
    | cons c rest => exact char_of_ne (hrest c rfl).2.2
  unfold Reads key
  rw [(reads_sepBy1 hpart hdot).bind_eq]
  rfl

theorem Plain.head?_write (v : Plain) (rest : List Char) :
    ∃ c, isSpace c = false ∧ (v.write ++ rest).head? = some c := by
  cases v with
  | text s => exact ⟨'"', rfl, rfl⟩
  | natural n =>
    obtain ⟨d, ds, hds, hd, -⟩ := exists_toDigits n
    refine ⟨d, isSpace_of_isBare ?_, by rw [write, hds]; rfl⟩
    simp [isBare, hd]
  | boolean b =>
    cases b with
    | true => exact ⟨'t', rfl, rfl⟩
    | false => exact ⟨'f', rfl, rfl⟩

theorem lift_bind_pure {α β : Type} (o : Option α) (g : α → β) (cs : List Char) :
    (StateT.lift o >>= fun a => pure (g a) : Parser β) cs = o.map fun a => (g a, cs) := by
  cases o <;> rfl

theorem header_write (hname : IsBareKey name) (p : Progress) (rest : List Char) :
    header p ('[' :: (name.toList ++ [']', '\n']) ++ rest) =
      (p.tables.openTable [] name).map fun tables => (⟨tables, [name]⟩, rest) := by
  have hkey : key.Reads (name.toList ++ []) ([], name) ([']'] ++ (['\n'] ++ rest)) :=
    reads_key hname (by simp) (by rintro c ⟨⟩; decide)
  have hline : '[' :: (name.toList ++ [']', '\n']) ++ rest =
      ['['] ++ (name.toList ++ [] ++ ([']'] ++ (['\n'] ++ rest))) := by simp
  unfold header
  rw [hline, (reads_char '[').bind_eq, hkey.bind_eq]
  simp only
  rw [(reads_char ']').bind_eq, reads_trailing.bind_eq]
  exact lift_bind_pure _ _ _

/-- The header of a table is not one of a list. -/
theorem itemHeader_of_header (hname : IsBareKey name) (p : Progress) (rest : List Char) :
    itemHeader p ('[' :: (name.toList ++ [']', '\n']) ++ rest) = none := by
  apply bind_of_none
  obtain ⟨c, hc, hfirst⟩ := hname.head?_eq ([']', '\n'] ++ rest)
  change (char '[' >>= fun _ => ['['].forM char) (['['] ++ (name.toList ++ [']', '\n'] ++ rest)) = none
  rw [(reads_char '[').bind_eq, List.append_assoc]
  cases hmore : name.toList ++ ([']', '\n'] ++ rest) with
  | nil => rfl
  | cons d cs =>
    rw [hmore] at hfirst
    cases hfirst
    exact bind_of_none (char_of_ne (isBare_ne hc rfl))

theorem entry_write {v : Plain} (hname : IsBareKey name) (hv : v.IsWritable) (p : Progress)
    (rest : List Char) :
    entry p (name.toList ++ ([' '] ++ (['=', ' '] ++ (v.write ++ ['\n']))) ++ rest) =
      (Node.update false (Node.insert [] name v.value) p.current p.tables).map fun tables =>
        ({ p with tables }, rest) := by
  have hkey : key.Reads (name.toList ++ [' ']) ([], name)
      (['='] ++ ([' '] ++ (v.write ++ (['\n'] ++ rest)))) :=
    reads_key hname (by simp [isSpace]) (by rintro c ⟨⟩; decide)
  have hspaces : spaces.Reads [' '] () (v.write ++ (['\n'] ++ rest)) := by
    refine reads_spaces (by simp [isSpace]) ?_
    obtain ⟨c, hc, hfirst⟩ := v.head?_write (['\n'] ++ rest)
    rw [hfirst]
    rintro d ⟨⟩
    exact hc
  have hvalue : (value depthLimit).Reads v.write v.value (['\n'] ++ rest) := reads_value hv
  have hline : name.toList ++ ([' '] ++ (['=', ' '] ++ (v.write ++ ['\n']))) ++ rest =
      name.toList ++ [' '] ++ (['='] ++ ([' '] ++ (v.write ++ (['\n'] ++ rest)))) := by simp
  unfold entry
  rw [hline, hkey.bind_eq]
  simp only
  rw [(reads_char '=').bind_eq, hspaces.bind_eq, hvalue.bind_eq, reads_trailing.bind_eq]
  exact lift_bind_pure _ _ _

theorem spaces_skip {c : Char} {cs : List Char} (hc : isSpace c = false) :
    spaces.Reads [] () (c :: cs) := by
  refine reads_spaces (by simp) ?_
  rintro d ⟨⟩
  exact hc

theorem line_of_isBare {c : Char} (hc : isBare c) (p : Progress) (cs : List Char) :
    line p (c :: cs) = entry p (c :: cs) := by
  unfold line
  rw [(spaces_skip (isSpace_of_isBare hc)).skip, peek_bind_of_head? (List.head?_cons ..)]
  have hne {d : Char} (hd : isBare d = false) : some c ≠ some d := by
    rintro ⟨⟩
    rw [hc] at hd
    cases hd
  refine congrFun (f := _) ?_ (c :: cs)
  split
  · contradiction
  · exact absurd ‹some c = some '#'› (hne rfl)
  · exact absurd ‹some c = some '\n'› (hne rfl)
  · exact absurd ‹some c = some '\r'› (hne rfl)
  · exact absurd ‹some c = some '['› (hne rfl)
  · rfl

/-- A line does to the tables what it says. -/
theorem line_write {l : Line} (h : l.IsWritable) (p : Progress) (rest : List Char) :
    line p (l.write ++ rest) = (l.enter? p).map fun q => (q, rest) := by
  cases l with
  | blank =>
    unfold line
    rw [Line.write, List.singleton_append, (spaces_skip rfl).skip]
    exact reads_newline.bind_pure fun _ => p
  | header name =>
    unfold line
    rw [Line.write, List.cons_append, (spaces_skip rfl).skip, peek_bind_of_head? (List.head?_cons ..)]
    change (itemHeader p <|> header p) ('[' :: (name.toList ++ [']', '\n']) ++ rest) = _
    rw [orElse_of_none (itemHeader_of_header h p rest), header_write h p rest, Line.enter?,
      Option.map_map]
    rfl
  | entry name v =>
    obtain ⟨hname, hv⟩ := h
    have hentry := entry_write hname hv p rest
    obtain ⟨c, hc, hfirst⟩ := hname.head?_eq ([' '] ++ (['=', ' '] ++ (v.write ++ ['\n'])) ++ rest)
    rw [← List.append_assoc] at hfirst
    rw [Line.write, Line.enter?, Option.map_map]
    cases hline : name.toList ++ ([' '] ++ (['=', ' '] ++ (v.write ++ ['\n']))) ++ rest with
    | nil =>
      rw [hline] at hfirst
      cases hfirst
    | cons d cs =>
      rw [hline] at hfirst hentry
      cases hfirst
      rw [line_of_isBare hc, hentry]
      rfl

/-- No line begins with a blank, nor with a byte order mark. -/
theorem Line.exists_write {l : Line} (h : l.IsWritable) :
    ∃ c cs, l.write = c :: cs ∧ isSpace c = false ∧ c ≠ '\uFEFF' := by
  cases l with
  | blank => exact ⟨_, _, rfl, rfl, by decide⟩
  | header name => exact ⟨_, _, rfl, rfl, by decide⟩
  | entry name v =>
    obtain ⟨⟨hne, hbare⟩, -⟩ := h
    cases hname : name.toList with
    | nil => exact absurd hname hne
    | cons c cs =>
      have hc : isBare c := hbare c (by simp [hname])
      exact ⟨c, _, by rw [write, hname, List.cons_append], isSpace_of_isBare hc, isBare_ne hc rfl⟩

/-- Lines that are written one after the other. -/
def writeLines (ls : List Line) : List Char :=
  ls.flatMap Line.write

theorem length_le_writeLines {ls : List Line} (h : ∀ l ∈ ls, l.IsWritable) :
    ls.length ≤ (writeLines ls).length := by
  induction ls with
  | nil => exact Nat.le_refl 0
  | cons l ls ih =>
    obtain ⟨hl, hls⟩ := List.forall_mem_cons.mp h
    obtain ⟨c, cs, hwrite, -⟩ := Line.exists_write hl
    have hmore := ih hls
    simp only [writeLines, List.flatMap_cons, List.length_append, List.length_cons, hwrite] at hmore ⊢
    omega

/-- Lines are read one by one, whatever they do to the tables. -/
theorem lines_writeLines {ls : List Line} (h : ∀ l ∈ ls, l.IsWritable) {n : Nat}
    (hn : ls.length < n) (p : Progress) :
    lines n p (writeLines ls) = (ls.foldlM Line.enter? p).map fun q => (q, []) := by
  induction ls generalizing n p with
  | nil =>
    cases n with
    | zero => cases hn
    | succ n => rfl
  | cons l ls ih =>
    obtain ⟨hl, hls⟩ := List.forall_mem_cons.mp h
    obtain ⟨c, cs, hwrite, hc, -⟩ := Line.exists_write hl
    cases n with
    | zero => cases hn
    | succ n =>
      have hgoes : (maybe do spaces; atEnd).Reads [] none (l.write ++ writeLines ls) := by
        apply maybe_of_none
        rw [hwrite, List.cons_append, (spaces_skip hc).skip]
        rfl
      change lines (n + 1) p (l.write ++ writeLines ls) = _
      rw [lines, hgoes.skip]
      simp only
      rw [Parser.bind_eq, line_write hl, List.foldlM_cons]
      cases l.enter? p with
      | none => rfl
      | some q => exact ih hls (Nat.lt_of_succ_lt_succ hn) q

/-- A document of such lines is what they do to the tables, one after the other. -/
theorem parse?_writeLines {ls : List Line} (h : ∀ l ∈ ls, l.IsWritable) :
    parse? (String.ofList (writeLines ls)) =
      (ls.foldlM Line.enter? ⟨Node.root, []⟩).map fun p => p.tables.toValue := by
  have hmark : (maybe (char '\uFEFF')).Reads [] none (writeLines ls) := by
    apply maybe_of_none
    cases ls with
    | nil => rfl
    | cons l ls =>
      obtain ⟨c, cs, hwrite, -, hc⟩ := Line.exists_write (h l (.head _))
      rw [writeLines, List.flatMap_cons, hwrite]
      exact char_of_ne hc
  have hlines := lines_writeLines h (Nat.lt_succ_of_le (length_le_writeLines h)) ⟨Node.root, []⟩
  unfold parse? document
  rw [String.toList_ofList, hmark.skip, Parser.bind_eq]
  change ((lines ((writeLines ls).length + 1) ⟨Node.root, []⟩ (writeLines ls)).bind _).map _ = _
  rw [hlines]
  cases ls.foldlM Line.enter? ⟨Node.root, []⟩ <;> rfl

end Lines

end Courier.Toml
