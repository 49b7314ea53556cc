import Courier.Toml.Lexical

namespace Courier.Toml.Parser

variable {α β : Type} {p : Parser α} {f : α → Parser β} {s t cs rest : List Char} {a : α} {b : β}

/-- The parser takes just `s` off a text that goes on with `rest`. -/
def Reads (p : Parser α) (s : List Char) (a : α) (rest : List Char) : Prop :=
  p (s ++ rest) = some (a, rest)

theorem bind_eq (p : Parser α) (f : α → Parser β) (cs : List Char) :
    (p >>= f) cs = (p cs).bind fun r => f r.1 r.2 :=
  rfl

theorem orElse_eq (p q : Parser α) (cs : List Char) : (p <|> q) cs = (p cs).or (q cs) := by
  change (p cs <|> q cs) = _
  cases p cs <;> rfl

theorem bind_of_none (h : p cs = none) : (p >>= f) cs = none := by
  rw [bind_eq, h]
  rfl

theorem reads_pure : (pure a : Parser α).Reads [] a rest :=
  rfl

theorem Reads.bind (hp : p.Reads s a (t ++ rest)) (hf : (f a).Reads t b rest) :
    (p >>= f).Reads (s ++ t) b rest := by
  unfold Reads at hp hf ⊢
  rw [List.append_assoc, bind_eq, hp]
  exact hf

theorem Reads.bind_pure (h : p.Reads s a rest) (g : α → β) :
    (p >>= fun a => pure (g a)).Reads s (g a) rest := by
  unfold Reads at h ⊢
  rw [Parser.bind_eq, h]
  rfl

/-- What comes after a first part has been read. -/
theorem Reads.bind_eq (h : p.Reads s a rest) : (p >>= f) (s ++ rest) = f a rest := by
  rw [Parser.bind_eq, h]
  rfl

/-- What comes after nothing has been taken. -/
theorem Reads.skip (h : p.Reads [] a rest) : (p >>= f) rest = f a rest :=
  h.bind_eq

theorem orElse_of_none {q : Parser α} (h : p cs = none) : (p <|> q) cs = q cs := by
  rw [orElse_eq, h, Option.none_or]

section Characters

variable {c d : Char} {accepts : Char → Bool}

theorem reads_satisfy (h : accepts c) : (satisfy accepts).Reads [c] c rest :=
  if_pos h

theorem satisfy_of_not (h : accepts c = false) : satisfy accepts (c :: cs) = none :=
  if_neg (by rw [h]; nofun)

theorem reads_char (c : Char) : (char c).Reads [c] () rest := by
  have hc : (satisfy (· == c)).Reads [c] c rest := reads_satisfy (beq_self_eq_true c)
  exact hc.bind_pure fun _ => ()

theorem char_of_ne (h : d ≠ c) : char c (d :: cs) = none :=
  bind_of_none (satisfy_of_not (beq_eq_false_iff_ne.mpr h))

theorem peek_bind_of_head? {c : Char} (h : cs.head? = some c) (f : Option Char → Parser β) :
    (peek >>= f) cs = f (some c) cs := by
  rw [← h]
  rfl

theorem reads_peek_bind {f : Option Char → Parser β} (h : (f (s ++ rest).head?).Reads s b rest) :
    (peek >>= f).Reads s b rest :=
  h

theorem forM_char (s : List Char) : (s.forM char).Reads s () rest := by
  induction s with
  | nil => exact reads_pure
  | cons c s ih => exact (reads_char c).bind ih

theorem reads_literal (text : String) : (literal text).Reads text.toList () rest :=
  forM_char text.toList

theorem literal_of_ne {text : String} (h : text.toList.head? = some c) (hd : d ≠ c) :
    literal text (d :: cs) = none := by
  unfold literal
  cases htext : text.toList with
  | nil =>
    rw [htext] at h
    cases h
  | cons e text =>
    rw [htext] at h
    cases h
    exact bind_of_none (char_of_ne hd)

/-- Characters are taken up to the first one that is not accepted. -/
theorem reads_takeWhile (hs : ∀ c ∈ s, accepts c) (hrest : ∀ c ∈ rest.head?, accepts c = false) :
    (takeWhile accepts).Reads s s rest := by
  have hnone : rest.takeWhile accepts = [] ∧ rest.dropWhile accepts = rest := by
    cases rest with
    | nil => exact ⟨rfl, rfl⟩
    | cons c rest => simp [hrest c rfl]
  unfold Reads takeWhile
  rw [List.takeWhile_append_of_pos hs, List.dropWhile_append_of_pos hs, hnone.1, hnone.2,
    List.append_nil]

end Characters

section Repetition

theorem maybe_of_none (h : p rest = none) : (Parser.maybe p).Reads [] none rest := by
  unfold Reads
  simp only [Parser.maybe, List.nil_append, h]

theorem atMost_of_none (h : p rest = none) (n : Nat) : (atMost p n).Reads [] [] rest := by
  cases n with
  | zero => rfl
  | succ n =>
    unfold Reads atMost
    simp only [List.nil_append, h]

/-- Nothing is taken as often as it takes to fail. -/
theorem many_of_none (h : p rest = none) : (many p).Reads [] [] rest :=
  atMost_of_none h _

theorem atMost_of_some (h : p cs = some (a, rest)) (n : Nat) :
    atMost p (n + 1) cs = (atMost p n rest).map fun r => (a :: r.1, r.2) := by
  rw [atMost]
  simp only [h]

/-- A bound of the input's length is none for a parser that takes something each time. -/
theorem atMost_of_le (hp : ∀ cs a rest, p cs = some (a, rest) → rest.length < cs.length) {n : Nat}
    (hn : cs.length ≤ n) : atMost p n cs = atMost p cs.length cs := by
  induction n using Nat.strongRecOn generalizing cs with
  | ind n ih =>
    cases hcs : p cs with
    | none =>
      have hn : (atMost p n).Reads [] [] cs := atMost_of_none hcs n
      exact hn.trans (atMost_of_none hcs cs.length).symm
    | some r =>
      obtain ⟨a, rest⟩ := r
      have hlt := hp cs a rest hcs
      obtain ⟨k, hk⟩ : ∃ k, cs.length = k + 1 := ⟨cs.length - 1, by omega⟩
      obtain ⟨m, rfl⟩ : ∃ m, n = m + 1 := ⟨n - 1, by omega⟩
      have hm : atMost p m rest = atMost p rest.length rest := ih m (Nat.lt_succ_self m) (by omega)
      have hk' : atMost p k rest = atMost p rest.length rest := ih k (by omega) (by omega)
      rw [hk, atMost_of_some hcs, atMost_of_some hcs, hm, hk']

/-- It goes on until the parser fails. -/
theorem many_eq (hp : ∀ cs a rest, p cs = some (a, rest) → rest.length < cs.length)
    (cs : List Char) :
    many p cs =
      match p cs with
      | none => some ([], cs)
      | some (a, rest) => (many p rest).map fun r => (a :: r.1, r.2) := by
  cases hcs : p cs with
  | none => exact many_of_none hcs
  | some r =>
    obtain ⟨a, rest⟩ := r
    have hlt := hp cs a rest hcs
    obtain ⟨k, hk⟩ : ∃ k, cs.length = k + 1 := ⟨cs.length - 1, by omega⟩
    have hrest : atMost p k rest = atMost p rest.length rest := atMost_of_le hp (by omega)
    unfold many
    rw [hk, atMost_of_some hcs, hrest]

/-- One character is taken each time, up to what the parser does not take. -/
theorem reads_many {accepts : Char → Bool} {p : Parser Char}
    (hp : ∀ c rest, accepts c → p (c :: rest) = some (c, rest)) (hs : ∀ c ∈ s, accepts c)
    (hrest : p rest = none) : (many p).Reads s s rest := by
  have hmost (n : Nat) (hn : s.length ≤ n) : (atMost p n).Reads s s rest := by
    induction s generalizing n with
    | nil => exact atMost_of_none hrest n
    | cons c s ih =>
      obtain ⟨hc, hs⟩ := List.forall_mem_cons.mp hs
      cases n with
      | zero => cases hn
      | succ n =>
        have hmore := ih hs n (Nat.le_of_succ_le_succ hn)
        unfold Reads at hmore ⊢
        rw [List.cons_append, atMost_of_some (hp c (s ++ rest) hc), hmore, Option.map_some]
  exact hmost _ (by simp)

theorem reads_sepBy1 {sep : Parser β} (hp : p.Reads s a rest) (hsep : sep rest = none) :
    (sepBy1 p sep).Reads s [a] rest := by
  have hmany : (many do let _ ← sep; p).Reads [] [] rest := many_of_none (bind_of_none hsep)
  unfold Reads
  rw [sepBy1, hp.bind_eq]
  exact hmany.bind_pure (a :: ·)

end Repetition

end Courier.Toml.Parser
