import ResourceBuild.Proofs.Manifest.Line
import ResourceBuild.Proofs.Outcome

/-!
# Reading literals

What a reader of Lua makes of the literals in a manifest. A literal reads back as the text it was
made from, up to its own closing quote, exactly when that text has no carriage return: that one is
not escaped, and a line end of either kind leaves a literal unfinished.
-/

namespace ResourceBuild.Manifest

/-! ### The reader -/

/-- Why a text cannot be read as a literal. -/
inductive LiteralFault where
  | notQuoted
  | unfinished
  | unknownEscape
  deriving DecidableEq

/-- The character that an escape stands for. -/
def unescape? (c : Char) : Option Char :=
  if c = '\\' then some '\\'
  else if c = '\'' then some '\''
  else if c = 'n' then some '\n'
  else none

/-- Puts a character in front of one that was read. -/
def prepend (c : Char) (r : List Char × List Char) : List Char × List Char :=
  (c :: r.1, r.2)

/-- The characters up to the closing quote of a literal, and what follows it. -/
def literalBody : List Char → Except LiteralFault (List Char × List Char)
  | [] => .error .unfinished
  | c :: cs =>
    if c = '\'' then .ok ([], cs)
    else if c = '\n' ∨ c = '\r' then .error .unfinished
    else if c = '\\' then
      match cs with
      | [] => .error .unfinished
      | e :: cs =>
        match unescape? e with
        | some c => prepend c <$> literalBody cs
        | none => .error .unknownEscape
    else prepend c <$> literalBody cs

/-- The text that the literal at the start of a text stands for, and what follows the literal. -/
def readLiteral (s : String) : Except LiteralFault (String × String) :=
  match s.toList with
  | [] => .error .notQuoted
  | c :: cs =>
    if c = '\'' then (fun r => (String.ofList r.1, String.ofList r.2)) <$> literalBody cs
    else .error .notQuoted

lemma literalBody_quote (r : List Char) : literalBody ('\'' :: r) = .ok ([], r) := by
  rw [literalBody.eq_def]
  rfl

lemma literalBody_lineEnd {c : Char} (hc : c = '\n' ∨ c = '\r') (r : List Char) :
    literalBody (c :: r) = .error .unfinished := by
  rw [literalBody.eq_def]
  rcases hc with rfl | rfl <;> rfl

lemma literalBody_unescape {e c : Char} (he : unescape? e = some c) (r : List Char) :
    literalBody ('\\' :: e :: r) = prepend c <$> literalBody r := by
  rw [literalBody.eq_def]
  simp [he]

lemma literalBody_cons {c : Char} (hquote : c ≠ '\'') (hline : ¬ (c = '\n' ∨ c = '\r'))
    (hslash : c ≠ '\\') (r : List Char) :
    literalBody (c :: r) = prepend c <$> literalBody r := by
  rw [literalBody.eq_def]
  simp only [hquote, hline, hslash, if_false]

/-- A literal takes at least its closing quote. -/
lemma length_lt_of_literalBody {cs v t : List Char} (h : literalBody cs = .ok (v, t)) :
    t.length < cs.length := by
  -- by the cases of the reader, each of which goes past the characters that it reads
  induction cs using literalBody.induct generalizing v with
  | case1 => cases h
  | case2 cs =>
    rw [literalBody_quote] at h
    cases h
    exact Nat.lt_succ_self _
  | case3 c cs _ hline =>
    rw [literalBody_lineEnd hline] at h
    cases h
  | case4 => cases h
  | case5 e cs c hescape _ _ ih =>
    rw [literalBody_unescape hescape, Outcome.map_eq_ok_iff] at h
    obtain ⟨r, hr, heq⟩ := h
    cases heq
    exact Nat.lt_succ_of_lt (Nat.lt_succ_of_lt (ih hr))
  | case6 e cs hescape => simp [literalBody, hescape] at h
  | case7 c cs hquote hline hslash ih =>
    rw [literalBody_cons hquote hline hslash, Outcome.map_eq_ok_iff] at h
    obtain ⟨r, hr, heq⟩ := h
    cases heq
    exact Nat.lt_succ_of_lt (ih hr)

/-- The texts of all literals in a text. -/
def literals (cs : List Char) : Except LiteralFault (List String) :=
  match _hcs : cs.dropWhile (· ≠ '\'') with
  | [] => .ok []
  | _ :: r =>
    match _h : literalBody r with
    | .error e => .error e
    | .ok (v, t) => (String.ofList v :: ·) <$> literals t
termination_by cs.length
decreasing_by
  have hdrop := (List.dropWhile_sublist (· ≠ '\'') (l := cs)).length_le
  have hbody := length_lt_of_literalBody _h
  rw [_hcs, List.length_cons] at hdrop
  omega

/-! ### Reading what was written -/

/-- A written character reads back, unless it is a carriage return. -/
lemma literalBody_escape (c : Char) (t : List Char) :
    literalBody (escape c ++ t) =
      if c = '\r' then .error .unfinished else prepend c <$> literalBody t := by
  unfold escape
  split_ifs with hslash hreturn hquote hreturn hline hreturn hreturn
  · subst hslash
    cases hreturn
  · subst hslash
    exact literalBody_unescape rfl t
  · subst hquote
    cases hreturn
  · subst hquote
    exact literalBody_unescape rfl t
  · subst hline
    cases hreturn
  · subst hline
    exact literalBody_unescape rfl t
  · exact literalBody_lineEnd (.inr hreturn) t
  · exact literalBody_cons hquote (by simp [hline, hreturn]) hslash t

/-- A written text reads back up to the quote behind it, unless it has a carriage return. -/
lemma literalBody_flatMap_escape (cs r : List Char) :
    literalBody (cs.flatMap escape ++ '\'' :: r) =
      if '\r' ∈ cs then .error .unfinished else .ok (cs, r) := by
  induction cs with
  | nil => simp [literalBody_quote]
  | cons c cs ih =>
    rw [List.flatMap_cons, List.append_assoc, literalBody_escape, ih]
    by_cases hc : c = '\r'
    · simp [hc]
    · rw [if_neg hc]
      by_cases hcs : '\r' ∈ cs
      · simp [hcs]
      · simp [hcs, Ne.symm hc, prepend]

lemma readLiteral_quote (v r : String) :
    readLiteral (quote v ++ r) =
      if '\r' ∈ v.toList then .error .unfinished else .ok (v, r) := by
  have hquote : (quote v ++ r).toList = '\'' :: (v.toList.flatMap escape ++ '\'' :: r.toList) := by
    simp [quote, quoteChars]
  rw [readLiteral, hquote]
  simp only [if_true, literalBody_flatMap_escape]
  split_ifs
  · rfl
  · simp

/-- The search for a quote passes over a plain text. -/
lemma dropWhile_plain_append {cs : List Char} (h : IsPlain cs) (r : List Char) :
    (cs ++ r).dropWhile (· ≠ '\'') = r.dropWhile (· ≠ '\'') := by
  refine List.dropWhile_append_of_pos fun c hc => ?_
  rw [decide_eq_true_eq]
  rintro rfl
  exact h.1 hc

/-- There are no literals in a plain text. -/
lemma literals_plain {cs : List Char} (h : IsPlain cs) : literals cs = .ok [] := by
  have hdrop := dropWhile_plain_append h []
  rw [List.append_nil, List.dropWhile_nil] at hdrop
  rw [literals]
  split
  · rfl
  · next hcons =>
    rw [hdrop] at hcons
    cases hcons

/-- The first literal in a text is the one behind its first quote. -/
lemma literals_quoteChars {cs : List Char} (h : IsPlain cs) (v : String) (t : List Char) :
    literals (cs ++ (quoteChars v.toList ++ t)) =
      if '\r' ∈ v.toList then .error .unfinished else (v :: ·) <$> literals t := by
  -- the search for a quote stops at the one that opens the literal
  have hdrop : (cs ++ (quoteChars v.toList ++ t)).dropWhile (· ≠ '\'') =
      '\'' :: (v.toList.flatMap escape ++ '\'' :: t) := by
    rw [dropWhile_plain_append h]
    simp [quoteChars]
  rw [literals]
  split
  · next hnil =>
    rw [hdrop] at hnil
    cases hnil
  · next hcons =>
    rw [hdrop] at hcons
    cases hcons
    split
    · next hbody =>
      rw [literalBody_flatMap_escape] at hbody
      split_ifs at hbody ⊢
      cases hbody
      rfl
    · next hbody =>
      rw [literalBody_flatMap_escape] at hbody
      split_ifs at hbody ⊢
      cases hbody
      rw [String.ofList_toList]

/-- The literals in a text that carries values are those values, if none has a carriage return. -/
lemma Carries.literals_eq {vs : List String} {t : List Char} (h : Carries vs t) :
    literals t = if ∃ v ∈ vs, '\r' ∈ v.toList then .error .unfinished else .ok vs := by
  induction h with
  | plain hplain => simp [literals_plain hplain]
  | @literal v vs cs t hplain _ ih =>
    rw [literals_quoteChars hplain, ih]
    by_cases hv : '\r' ∈ v.toList
    · simp [hv]
    · by_cases hvs : ∃ v ∈ vs, '\r' ∈ v.toList <;> simp [hv, hvs]

/--
A literal in front of any text reads back as the text it was made from, up to its own end, exactly
when that has no carriage return; with one, the literal is unfinished. So the literals on a line of
the manifest, behind the key it starts with, are the values of that line, all of them or none.
-/
theorem literals_read_back (v r : String) (metadata : Metadata) (s : Section) :
    (readLiteral (quote v ++ r) =
      if '\r' ∈ v.toList then .error .unfinished else .ok (v, r)) ∧
    List.Forall₂
      (fun c line => ∃ t, line.toList = c.lead.toList ++ t ∧ literals t =
        if ∃ v ∈ c.values, '\r' ∈ v.toList then .error .unfinished else .ok c.values)
      (contents metadata s) (lines metadata s) := by
  refine ⟨readLiteral_quote v r, (lines_written metadata s).imp ?_⟩
  rintro c line ⟨t, hline, _, hcarries⟩
  exact ⟨t, hline, hcarries.literals_eq⟩

/-- A carriage return leaves the literal of its text unreadable. -/
theorem literal_carriage_return_unread :
    readLiteral (quote "a\rb" ++ ",") = .error .unfinished ∧
      readLiteral (quote "a\rb" ++ ",") ≠ .ok ("a\rb", ",") := by
  have hread : readLiteral (quote "a\rb" ++ ",") = .error .unfinished := by decide
  rw [hread]
  exact ⟨rfl, by simp⟩

end ResourceBuild.Manifest
