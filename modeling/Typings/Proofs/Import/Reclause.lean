import Typings.Proofs.Import.Alike
import Typings.Proofs.Import.Clause

/-!
# `Reclause` — reading another clause in the place of one that was read

A clause ends at the `from` behind it, and how much of the text is its clause does not depend on what the
clause was that brought the reader there.  So a clause that is written anew is read in its place, as long
as it joins as a whole; and a comment in a clause that was read was closed in it.

* `trivia_token`: trivia end in front of every token, as they did in front of one.
* `Tokens`: a text that was read token by token; `tokens_clause` for clauses.
* `slash_of_mem_trivia`, `Tokens.slash`: a comment that has something behind it was closed.
* `readClause?_from`, `readClause?_from_inside`: what is behind a clause ends any clause, and is a name
  between braces.
* `readClause?_inside`: between braces it makes no difference whether a binding was seen.
* `readClause?_braced`, `readClause?_both`: clauses that are put together from bindings join as a whole.
-/

namespace Typings.Import

open Declaration (braced)

/-! ## Trivia -/

/-- Inside of a block comment there are no tokens. -/
theorem triviaFrom_block_ne (t : Text) {c : Char} {w : Text} : triviaFrom .block t ≠ ([], c :: w) := by
  cases t with
  | nil => nofun
  | cons d t =>
      intro h
      rw [triviaFrom.eq_def] at h
      split at h <;> simp_all

theorem triviaFrom_token {s : TriviaState} {t a w v : Text} {c d : Char} (h : triviaFrom s t = (a, c :: w))
    (hd : Text.isAsciiBlank d = false) (hs : d ≠ '/') : triviaFrom s (a ++ d :: v) = (a, d :: v) := by
  fun_induction triviaFrom s t generalizing a with
  | case1 => simp at h
  | case2 t b r heq ih =>
      obtain ⟨rfl, rfl⟩ := Prod.mk.inj h
      simp only [List.cons_append, triviaFrom, ih heq]
  | case3 t b r heq ih =>
      obtain ⟨rfl, rfl⟩ := Prod.mk.inj h
      simp only [List.cons_append, triviaFrom, ih heq]
  | case4 e t _ _ hblank b r heq ih =>
      obtain ⟨rfl, rfl⟩ := Prod.mk.inj h
      have hrest : trivia (b ++ d :: v) = (b, d :: v) := ih heq
      rw [List.cons_append]
      exact (trivia_blank hblank).trans (by rw [hrest])
  | case5 e t _ _ hblank =>
      obtain ⟨rfl, -⟩ := Prod.mk.inj h
      exact trivia_of_token hd hs
  | case6 t b r heq ih =>
      obtain ⟨rfl, rfl⟩ := Prod.mk.inj h
      simp only [List.cons_append, triviaFrom, ih heq]
  | case7 e t hne b r heq ih =>
      obtain ⟨rfl, rfl⟩ := Prod.mk.inj h
      rw [List.cons_append, triviaFrom, ih heq]
      exact hne
  | case8 t b r heq ih =>
      obtain ⟨rfl, rfl⟩ := Prod.mk.inj h
      simp only [List.cons_append, triviaFrom, ih heq]
  | case9 e t hne b r heq ih =>
      obtain ⟨rfl, rfl⟩ := Prod.mk.inj h
      rw [List.cons_append, triviaFrom, ih heq]
      -- The comment is not closed by what is put behind it: it goes on with a character of its own.
      intro u he hu
      cases b with
      | nil => exact triviaFrom_block_ne t heq
      | cons e' b =>
          have happend := triviaFrom_append .block t
          rw [heq] at happend
          obtain rfl : e' = '/' := (List.cons.inj hu).1
          exact hne _ he happend.symm

/-- Trivia in front of one token are trivia in front of every token. -/
theorem trivia_token {t a w v : Text} {c d : Char} (h : trivia t = (a, c :: w))
    (hd : Text.isAsciiBlank d = false) (hs : d ≠ '/') : trivia (a ++ d :: v) = (a, d :: v) :=
  triviaFrom_token h hd hs

/-- Behind trivia there are no trivia. -/
theorem trivia_behind {t a u : Text} (h : trivia t = (a, u)) : trivia u = ([], u) := by
  induction hn : t.length using Nat.strongRecOn generalizing t a with
  | ind n ih =>
      have heq := trivia_eq t
      split at heq
      · next hstart =>
          obtain ⟨hne, -⟩ := isQuote_of_startsTrivia hstart
          rw [h] at heq
          obtain ⟨-, rfl⟩ := Prod.mk.inj heq
          exact ih _ (hn ▸ lexeme_rest_lt hne) rfl rfl
      · rw [h] at heq
        obtain ⟨rfl, rfl⟩ := Prod.mk.inj heq
        exact h

/-- A line comment that something stands behind ends with a line feed. -/
theorem mem_triviaFrom_line {t : Text} (h : (triviaFrom .line t).2 ≠ []) : '\n' ∈ (triviaFrom .line t).1 := by
  induction t with
  | nil => exact absurd rfl h
  | cons c t ih =>
      by_cases hc : c = '\n'
      · subst hc
        simp [triviaFrom]
      · have hcut : triviaFrom .line (c :: t) = (c :: (triviaFrom .line t).1, (triviaFrom .line t).2) := by
          rw [triviaFrom]
          exact hc
        rw [hcut] at h ⊢
        exact List.mem_cons_of_mem _ (ih h)

/-- A comment that something stands behind has a line feed at its end, or a star in it. -/
theorem slash_of_mem_trivia {t : Text} (h : '/' ∈ (trivia t).1) (hne : (trivia t).2 ≠ []) :
    '\n' ∈ (trivia t).1 ∨ '*' ∈ (trivia t).1 := by
  induction t with
  | nil => cases h
  | cons c t ih =>
      cases hc : Text.isAsciiBlank c with
      | true =>
          rw [trivia_blank hc] at h hne ⊢
          rcases List.mem_cons.mp h with rfl | h
          · exact absurd hc (by decide)
          · exact (ih h hne).imp (List.mem_cons_of_mem _) (List.mem_cons_of_mem _)
      | false =>
          unfold trivia at h hne ⊢
          rw [triviaFrom.eq_def] at h hne ⊢
          split at h
          · cases h
          · next t hcons =>
              obtain ⟨rfl, rfl⟩ := List.cons.inj hcons
              exact .inl (List.mem_cons_of_mem _ (List.mem_cons_of_mem _ (mem_triviaFrom_line hne)))
          · next t hcons =>
              obtain ⟨rfl, rfl⟩ := List.cons.inj hcons
              exact .inr (by simp)
          · rw [if_neg (by simp_all)] at h
            cases h
          all_goals contradiction

/-- Trivia are blanks up to their first slash. -/
theorem isAsciiBlank_of_trivia {t a b : Text} (h : (trivia t).1 = a ++ b) (ha : '/' ∉ a) :
    ∀ c ∈ a, Text.isAsciiBlank c = true := by
  induction t generalizing a with
  | nil =>
      obtain ⟨rfl, -⟩ := List.append_eq_nil_iff.mp h.symm
      nofun
  | cons c t ih =>
      cases a with
      | nil => nofun
      | cons d a =>
          simp only [List.mem_cons, not_or] at ha
          cases hc : Text.isAsciiBlank c with
          | true =>
              rw [trivia_blank hc] at h
              obtain ⟨rfl, htail⟩ : c = d ∧ (trivia t).1 = a ++ b := List.cons.inj h
              exact List.forall_mem_cons.mpr ⟨hc, ih htail ha.2⟩
          | false =>
              -- A comment starts with a slash.
              have hstart : c = '/' := by
                by_contra hs
                rw [trivia_of_token hc hs] at h
                cases h
              have happend := trivia_append (c :: t)
              rw [h] at happend
              exact absurd ((List.cons.inj happend).1.trans hstart).symm ha.1

/-! ## Clauses token by token -/

/-- The characters of the tokens in a clause. -/
def isToken (c : Char) : Bool := isIdent c || c == '\x7b' || c == '\x7d' || c == ',' || c == '*'

/-- A text that was read token by token: trivia, and behind them a token, and so on. -/
inductive Tokens : Text → Prop where
  | nil : Tokens []
  | cons {t token a : Text} (hnext : (trivia t).2 ≠ []) (hne : token ≠ [])
      (htoken : ∀ c ∈ token, isToken c = true) (h : Tokens a) : Tokens ((trivia t).1 ++ token ++ a)

theorem isAsciiBlank_of_isToken {c : Char} (h : isToken c = true) : Text.isAsciiBlank c = false := by
  simp only [isToken, Bool.or_eq_true, beq_iff_eq] at h
  rcases h with (((hi | rfl) | rfl) | rfl) | rfl
  · exact isAsciiBlank_of_isIdent hi
  all_goals decide

theorem slash_ne_of_isToken {c : Char} (h : isToken c = true) : c ≠ '/' := by
  rintro rfl
  exact absurd h (by decide)

/-- A clause starts with a token. -/
theorem isToken_of_readClause? {depth : Nat} {seen : Bool} {c : Char} {t blanks rest : Text} {r : ClauseRead}
    (htrivia : trivia t = (blanks, c :: rest)) (h : readClause? depth seen t = some r) :
    isToken c = true := by
  rw [readClause?_of_trivia htrivia] at h
  unfold isToken
  grind

theorem tokens_clause {depth : Nat} {seen : Bool} {t : Text} {r : ClauseRead}
    (h : readClause? depth seen t = some r) : Tokens r.clause := by
  have hmark {t rest : Text} {c : Char} (heq : (trivia t).2 = c :: rest) (hc : isToken c = true) {a : Text}
      (ha : Tokens a) : Tokens ((trivia t).1 ++ [c] ++ a) :=
    .cons (by simp [heq]) (by simp) (by simpa using hc) ha
  fun_induction readClause? depth seen t generalizing r
  case case1 => cases h
  case case2 t c rest heq blanks hc ih =>
      obtain ⟨r', hr, rfl⟩ := Option.map_eq_some_iff.mp h
      unfold ClauseRead.hold
      split
      · next hnil =>
          rw [List.isEmpty_iff.mp hnil]
          exact .nil
      · exact hmark heq (by simp [isToken, beq_iff_eq.mp hc]) (ih hr)
  case case3 => cases h
  case case4 t c rest heq blanks _ hc d ih =>
      obtain ⟨r', hr, rfl⟩ := Option.map_eq_some_iff.mp h
      exact hmark heq (by simp [isToken, beq_iff_eq.mp hc]) (ih hr)
  case case5 t c rest heq blanks _ _ hc ih =>
      obtain ⟨r', hr, rfl⟩ := Option.map_eq_some_iff.mp h
      rw [Bool.or_eq_true, beq_iff_eq, beq_iff_eq] at hc
      exact hmark heq (by rcases hc with rfl | rfl <;> rfl) (ih hr)
  case case6 =>
      obtain rfl := Option.some.inj h
      exact .nil
  case case7 t c rest heq blanks _ _ _ hc name hn ih =>
      obtain ⟨r', hr, rfl⟩ := Option.map_eq_some_iff.mp h
      refine .cons (by simp [heq]) (List.cons_ne_nil _ _) (fun d hd => ?_) (ih hr)
      have hident : isIdent d = true := by
        rcases List.mem_cons.mp hd with rfl | hd
        · exact hc
        · exact List.mem_takeWhile_imp hd
      simp [isToken, hident]
  case case8 => cases h

/-- Without a slash there are blanks between the tokens. -/
theorem Tokens.mem {a : Text} (h : Tokens a) (hs : '/' ∉ a) :
    ∀ c ∈ a, isToken c = true ∨ Text.isAsciiBlank c = true := by
  induction h with
  | nil => nofun
  | @cons t token a hnext hne htoken h ih =>
      simp only [List.mem_append, not_or] at hs
      intro c hc
      rcases List.mem_append.mp hc with hc | hc
      · rcases List.mem_append.mp hc with hc | hc
        · exact .inr (isAsciiBlank_of_trivia (List.append_nil _).symm hs.1.1 c hc)
        · exact .inl (htoken c hc)
      · exact ih hs.2 c hc

/-- **A comment between tokens was closed**: it has a line feed at its end, or a star in it. -/
theorem Tokens.slash {a : Text} (h : Tokens a) (hs : '/' ∈ a) : '\n' ∈ a ∨ '*' ∈ a := by
  induction h with
  | nil => cases hs
  | @cons t token a hnext hne htoken h ih =>
      rcases List.mem_append.mp hs with hs | hs
      · rcases List.mem_append.mp hs with hs | hs
        · exact (slash_of_mem_trivia hs hnext).imp (by simp +contextual) (by simp +contextual)
        · exact absurd rfl (slash_ne_of_isToken (htoken _ hs))
      · exact (ih hs).imp (List.mem_append_right _) (List.mem_append_right _)

/-- The last token ends the text. -/
theorem Tokens.getLast {a : Text} (h : Tokens a) : ∀ c ∈ a.getLast?, isToken c = true := by
  induction h with
  | nil => nofun
  | @cons t token a hnext hne htoken h ih =>
      intro c hc
      rw [List.getLast?_append, List.getLast?_append, Option.mem_def, Option.or_eq_some_iff] at hc
      rcases hc with hc | ⟨-, hc⟩
      · exact ih c hc
      · rw [List.getLast?_eq_some_getLast hne, Option.some_or] at hc
        exact Option.some.inj hc ▸ htoken _ (List.getLast_mem hne)

/-! ## What stands behind a clause -/

/-- Between braces a clause goes on. -/
theorem clause_ne_nil {depth : Nat} {seen : Bool} {t : Text} {r : ClauseRead} (hd : depth ≠ 0)
    (h : readClause? depth seen t = some r) : r.clause ≠ [] := by
  fun_induction readClause? depth seen t generalizing r
  case case1 => cases h
  case case2 t c rest heq blanks hc ih =>
      obtain ⟨r', hr, rfl⟩ := Option.map_eq_some_iff.mp h
      have hne := ih (Nat.succ_ne_zero _) hr
      simp [ClauseRead.hold, ClauseRead.join, hne]
  case case3 => cases h
  case case4 =>
      obtain ⟨r', hr, rfl⟩ := Option.map_eq_some_iff.mp h
      simp [ClauseRead.join]
  case case5 =>
      obtain ⟨r', hr, rfl⟩ := Option.map_eq_some_iff.mp h
      simp [ClauseRead.join]
  case case6 t c rest heq blanks _ _ _ hc name hn => simp_all
  case case7 =>
      obtain ⟨r', hr, rfl⟩ := Option.map_eq_some_iff.mp h
      simp [ClauseRead.join]
  case case8 => cases h

/-- Behind a clause stand trivia and the word `from`. -/
theorem exists_link {depth : Nat} {seen : Bool} {t : Text} {r : ClauseRead}
    (h : readClause? depth seen t = some r) :
    ∃ blanks : Text, r.link = blanks ++ "from" ∧
      trivia (r.link ++ r.rest) = (blanks, 'f' :: 'r' :: 'o' :: 'm' :: r.rest) ∧ Breaks r.rest := by
  fun_induction readClause? depth seen t generalizing r
  case case1 => cases h
  case case2 t c rest heq blanks hc ih =>
      obtain ⟨r', hr, rfl⟩ := Option.map_eq_some_iff.mp h
      have hne := clause_ne_nil (Nat.succ_ne_zero _) hr
      have hlink := ih hr
      rwa [ClauseRead.hold, if_neg (by simpa using hne)]
  case case3 => cases h
  case case4 ih =>
      obtain ⟨r', hr, rfl⟩ := Option.map_eq_some_iff.mp h
      have hlink := ih hr
      exact hlink
  case case5 ih =>
      obtain ⟨r', hr, rfl⟩ := Option.map_eq_some_iff.mp h
      have hlink := ih hr
      exact hlink
  case case6 t c rest heq blanks _ _ _ hc name hn =>
      obtain rfl := Option.some.inj h
      have hname : name = "from" := by simp_all
      have hsplit : name ++ (word rest).2 = c :: rest := congrArg (c :: ·) (word_append rest)
      refine ⟨blanks, congrArg (blanks ++ ·) hname, ?_, breaks_word rest⟩
      show trivia (blanks ++ name ++ (word rest).2) = (blanks, "from" ++ (word rest).2)
      rw [List.append_assoc, ← hname, hsplit, ← heq, trivia_append]
  case case7 ih =>
      obtain ⟨r', hr, rfl⟩ := Option.map_eq_some_iff.mp h
      have hlink := ih hr
      exact hlink
  case case8 => cases h

section

variable {depth : Nat} {seen : Bool} {t : Text} {r : ClauseRead} (h : readClause? depth seen t = some r)

include h

theorem readClause?_link (depth : Nat) (seen : Bool) :
    readClause? depth seen (r.link ++ r.rest) =
      if depth == 0 && seen then some ⟨[], r.link, r.rest⟩
      else (readClause? depth true r.rest).map (.join r.link) := by
  obtain ⟨blanks, hlink, htrivia, hbreaks⟩ := exists_link h
  have hword : word ('r' :: 'o' :: 'm' :: r.rest) = (['r', 'o', 'm'], r.rest) :=
    word_append_of_breaks (w := ['r', 'o', 'm']) (List.all_eq_true.mp (by decide)) hbreaks
  rw [readClause?_of_trivia (c := 'f') htrivia, hword, hlink]
  rfl

/-- The first word behind a clause is `from`, if there are no trivia in front of it. -/
theorem word_link : (word (r.link ++ r.rest)).1 = [] ∨ (word (r.link ++ r.rest)).1 = "from" := by
  obtain ⟨blanks, hlink, htrivia, hbreaks⟩ := exists_link h
  rw [hlink, List.append_assoc] at htrivia ⊢
  cases blanks with
  | nil =>
      have hword : (word (("from" : Text) ++ r.rest)).1 = "from" :=
        congrArg Prod.fst (word_append_of_breaks (List.all_eq_true.mp (by decide)) hbreaks)
      exact .inr hword
  | cons c blanks =>
      refine .inl (congrArg Prod.fst (word_of_breaks (breaks_cons.mpr ?_)))
      by_contra hc
      rw [List.cons_append, trivia_of_isIdent (by simpa using hc)] at htrivia
      cases htrivia

/-- What stands behind a clause ends it. -/
theorem readClause?_from : readClause? 0 true (r.link ++ r.rest) = some ⟨[], r.link, r.rest⟩ :=
  readClause?_link h 0 true

/-- Between braces nothing ends there. -/
theorem readClause?_from_inside (depth : Nat) :
    readClause? (depth + 1) true (r.link ++ r.rest)
      = (readClause? (depth + 1) true r.rest).map (.join r.link) :=
  readClause?_link h (depth + 1) true

end

/-! ## Clauses that are written anew -/

/-- Between braces it makes no difference whether a binding was seen: a `from` is a name there. -/
theorem readClause?_inside (depth : Nat) (seen : Bool) (t : Text) :
    readClause? (depth + 1) seen t = readClause? (depth + 1) true t := by
  induction hn : t.length using Nat.strongRecOn generalizing depth seen t with
  | ind n ih =>
      have happend := congrArg List.length (trivia_append t)
      cases hread : trivia t with
      | mk blanks rest =>
          cases rest with
          | nil =>
              rw [readClause?_of_nil (by rw [hread]), readClause?_of_nil (by rw [hread])]
          | cons c rest =>
              have hlt : rest.length < n := by
                rw [hread, List.length_append, List.length_cons, hn] at happend
                omega
              rw [readClause?_of_trivia hread, readClause?_of_trivia hread, ih _ hlt (depth + 1) seen rest rfl,
                ih _ hlt depth (seen || c == '*') rest rfl, Bool.true_or]
              simp

/-- Names, commas and blanks are read up to the brace that closes them, whatever the names are. -/
theorem closes_of_chars {a : Text} (ha : ∀ c ∈ a, isIdent c = true ∨ c = ' ' ∨ c = ',') (seen : Bool) :
    Closes seen (a ++ ['\x7d']) := by
  have hend (u : Text) : Breaks (['\x7d'] ++ u) := breaks_cons.mpr (by decide)
  induction hn : a.length using Nat.strongRecOn generalizing a seen with
  | ind n ih =>
      cases a with
      | nil => exact closes_brace seen
      | cons c a =>
          have hrest {b : Text} (hb : b <:+ a) (seen : Bool) : Closes seen (b ++ ['\x7d']) := by
            have hlt : b.length < n := by
              rw [← hn]
              exact Nat.lt_succ_of_le hb.length_le
            exact ih _ hlt (fun d hd => ha d (List.mem_cons_of_mem _ (hb.subset hd))) seen rfl
          intro depth t
          rcases ha c (by simp) with hc | rfl | rfl
          · -- A word ends where the next comma, blank or brace stands.
            have hword : Reads false (c :: (word a).1) := reads_word (List.cons_ne_nil _ _)
              (List.forall_mem_cons.mpr ⟨hc, fun d hd => List.mem_takeWhile_imp hd⟩) nofun
            have hbreaks : Breaks ((word a).2 ++ (['\x7d'] ++ t)) := by
              cases hr : (word a).2 with
              | nil => exact hend t
              | cons d r => exact breaks_cons.mpr (breaks_word a d (by rw [hr]; rfl))
            have hsplit : c :: a ++ ['\x7d'] ++ t = c :: (word a).1 ++ ((word a).2 ++ (['\x7d'] ++ t)) := by
              conv_lhs => rw [← word_append a]
              simp
            have hafter := hrest (List.dropWhile_suffix isIdent) true depth t
            rw [hsplit, readClause?_inside, ← readClause?_inside depth false, hword _ _ hbreaks,
              ← List.append_assoc]
            refine (congrArg _ hafter).trans ?_
            rw [map_join_map_join, ← List.append_assoc, List.cons_append]
            exact congrArg (fun w => Option.map (ClauseRead.join (c :: w ++ ['\x7d'])) _) (word_append a)
          · exact ((hrest List.suffix_rfl seen).blank (by simp)) depth t
          · have hafter := hrest List.suffix_rfl seen depth t
            rw [List.cons_append, List.cons_append, readClause?_comma, hafter, map_join_map_join]
            rfl

section

variable {ts : List Text} (hts : ∀ t ∈ ts, Neat t)

include hts

theorem closes_joined (seen : Bool) : Closes seen (' ' :: (List.intercalate ", " ts ++ [' ', '\x7d'])) := by
  have h := closes_of_chars (a := ' ' :: (List.intercalate ", " ts ++ [' '])) (fun c hc => by
    have hcases : c ∈ List.intercalate ", " ts ∨ c = ' ' := by simpa [or_comm, or_assoc] using hc
    exact hcases.elim (mem_joined hts) fun he => .inr (.inl he)) seen
  simpa using h

/-- Braces with bindings join as a whole, whatever follows them. -/
theorem readClause?_braced (depth : Nat) (seen : Bool) (t : Text) :
    readClause? depth seen (braced ts ++ t) = (readClause? depth true t).map (.join (braced ts)) :=
  (closes_joined hts seen).opened (by simp) depth t

/-- A default binding in front of braces joins with them. -/
theorem readClause?_both {d : Text} (hd : IsDefault d) (depth : Nat) (t : Text) :
    readClause? depth false (d ++ ", " ++ braced ts ++ t)
      = (readClause? depth true t).map (.join (d ++ ", " ++ braced ts)) := by
  have hname : Reads false d := reads_word hd.nonempty hd.ident nofun
  have hsplit : d ++ ", " ++ braced ts ++ t = d ++ ',' :: ' ' :: (braced ts ++ t) := by simp
  rw [hsplit, hname depth _ (breaks_cons.mpr (by decide)), readClause?_comma, readClause?_blank (by decide),
    readClause?_braced hts, map_hold_map_join _ (braced_ne_nil ts), map_join_map_join, map_join_map_join]
  simp

end

end Typings.Import
