import Mathlib.Data.List.Chain
import Mathlib.Tactic.SplitIfs
import ResourceBuild.Manifest.Render
import ResourceBuild.Proofs.Pairs

/-!
# Reading lines back

The lines of a section tell everything that they show. A literal is read from its opening quote on:
inside it a quote always stands behind a backslash, so the first one that does not is its end.
Behind a key, which may hold quotes and blanks itself, the literal is found from the end of the
line: its opening quote is the last one behind a blank.
-/

namespace ResourceBuild.Manifest

/-! ### Literals from the left -/

/-- Nothing is written with a quote in front. -/
lemma quote_cons_ne_escape (c : Char) (r s : List Char) : '\'' :: r ≠ escape c ++ s := by
  unfold escape
  split_ifs with _ hquote
  · simp
  · simp
  · simp
  · simpa using fun h => absurd h.symm hquote

/-- What is written for one character is no start of what is written for another. -/
lemma escape_append_inj {c d : Char} {r s : List Char} (h : escape c ++ r = escape d ++ s) :
    c = d ∧ r = s := by
  unfold escape at h
  split_ifs at h <;> simp_all [eq_comm]

lemma flatMap_escape_append_inj {v w r s : List Char}
    (h : v.flatMap escape ++ '\'' :: r = w.flatMap escape ++ '\'' :: s) : v = w ∧ r = s := by
  induction v generalizing w with
  | nil =>
    cases w with
    | nil => simpa using h
    | cons d w =>
      rw [List.flatMap_nil, List.nil_append, List.flatMap_cons, List.append_assoc] at h
      -- the quote that closes one text is no written character of the other
      exact absurd h (quote_cons_ne_escape d r _)
  | cons c v ih =>
    cases w with
    | nil =>
      rw [List.flatMap_nil, List.nil_append, List.flatMap_cons, List.append_assoc] at h
      exact absurd h.symm (quote_cons_ne_escape c s _)
    | cons d w =>
      rw [List.flatMap_cons, List.flatMap_cons, List.append_assoc, List.append_assoc] at h
      obtain ⟨rfl, hrest⟩ := escape_append_inj h
      obtain ⟨rfl, rfl⟩ := ih hrest
      exact ⟨rfl, rfl⟩

/-- A literal ends at its own closing quote, whatever follows it. -/
lemma quoteChars_append_inj {v w r s : List Char} (h : quoteChars v ++ r = quoteChars w ++ s) :
    v = w ∧ r = s := by
  apply flatMap_escape_append_inj
  simpa [quoteChars] using h

lemma quote_inj {v w : String} : quote v = quote w ↔ v = w := by
  constructor
  · intro h
    rw [quote, quote, String.ofList_inj] at h
    exact String.toList_inj.mp (quoteChars_append_inj (congrArg (· ++ []) h)).1
  · rintro rfl
    rfl

/-! ### Literals from the right -/

/-- A quote only stands behind a backslash. -/
def QuotesEscaped (cs : List Char) : Prop :=
  cs.IsChain fun c d => d = '\'' → c = '\\'

lemma quotesEscaped_escape (c : Char) : QuotesEscaped (escape c) := by
  unfold escape QuotesEscaped
  split_ifs <;> simp

lemma quotesEscaped_flatMap (v : List Char) : QuotesEscaped (v.flatMap escape) := by
  induction v with
  | nil => exact .nil
  | cons c v ih =>
    rw [List.flatMap_cons]
    refine List.isChain_append.mpr ⟨quotesEscaped_escape c, ih, ?_⟩
    -- the two pieces do not meet at a quote, since nothing is written with a quote in front
    rintro d _ q hq rfl
    cases v with
    | nil => cases hq
    | cons e v =>
      obtain ⟨r, hr⟩ := List.head?_eq_some_iff.mp hq
      rw [List.flatMap_cons] at hr
      exact absurd hr.symm (quote_cons_ne_escape e r _)

/-- What is written for a text has no quote behind a blank. -/
lemma flatMap_escape_ne_blank_quote (v p r : List Char) :
    v.flatMap escape ≠ p ++ ' ' :: '\'' :: r := by
  intro h
  have hchain := quotesEscaped_flatMap v
  rw [h, QuotesEscaped, List.isChain_append, List.isChain_cons_cons] at hchain
  exact absurd (hchain.2.1.1 rfl) (by decide)

/-- A literal behind a blank does not end with another one. -/
lemma lead_eq_nil {v w m : List Char}
    (h : ' ' :: quoteChars v = m ++ ' ' :: quoteChars w) : m = [] := by
  match m with
  | [] => rfl
  | [c] => simp [quoteChars] at h
  | c :: d :: m =>
    have hbody : v.flatMap escape ++ ['\''] =
        (m ++ ' ' :: '\'' :: w.flatMap escape) ++ ['\''] := by
      simp only [quoteChars, List.cons_append, List.cons.injEq] at h
      simpa using h.2.2
    exact absurd (List.append_cancel_right hbody) (flatMap_escape_ne_blank_quote v m _)

/-- The literal at the end of a line is told apart from the key in front of it. -/
lemma lead_quoteChars_inj {k l v w : List Char}
    (h : k ++ ' ' :: quoteChars v = l ++ ' ' :: quoteChars w) : k = l ∧ v = w := by
  have hlead : k = l := by
    rcases List.append_eq_append_iff.mp h with ⟨m, hl, hv⟩ | ⟨m, hk, hw⟩
    · rw [hl, lead_eq_nil hv, List.append_nil]
    · rw [hk, lead_eq_nil hw, List.append_nil]
  subst hlead
  have hquote := List.append_cancel_left h
  rw [List.cons.injEq] at hquote
  exact ⟨rfl, (quoteChars_append_inj (congrArg (· ++ []) hquote.2)).1⟩

/-! ### Lines -/

/-- A line tells its key and its value. -/
lemma entryLine_inj {k l v w : String} : entryLine k v = entryLine l w ↔ k = l ∧ v = w := by
  constructor
  · intro h
    have hlist : k.toList ++ ' ' :: quoteChars v.toList =
        l.toList ++ ' ' :: quoteChars w.toList := by
      simpa [entryLine, quote] using congrArg String.toList h
    obtain ⟨hkey, hvalue⟩ := lead_quoteChars_inj hlist
    exact ⟨String.toList_inj.mp hkey, String.toList_inj.mp hvalue⟩
  · rintro ⟨rfl, rfl⟩
    rfl

/-- A line that shows one value between two fixed texts tells that value. -/
lemma between_inj (before behind : String) {v w : String} :
    before ++ quote v ++ behind = before ++ quote w ++ behind ↔ v = w := by
  rw [String.append_left_inj, String.append_right_inj, quote_inj]

def Convar.ShowsSame (c d : Convar) : Prop :=
  c.description = d.description ∧ c.name = d.name ∧ c.kind = d.kind ∧
    Json.display c.initial = Json.display d.initial

/-- The line of a console variable tells all four of its texts. -/
lemma Convar.line_inj {c d : Convar} : c.line = d.line ↔ c.ShowsSame d := by
  constructor
  · intro h
    have hlist := congrArg String.toList h
    simp only [Convar.line, quote, String.toList_append, String.toList_ofList,
      List.append_assoc] at hlist
    have h1 := List.append_cancel_left (List.append_cancel_left (List.append_cancel_left hlist))
    obtain ⟨hdescription, h2⟩ := quoteChars_append_inj h1
    obtain ⟨hname, h3⟩ := quoteChars_append_inj (List.append_cancel_left h2)
    obtain ⟨hkind, h4⟩ := quoteChars_append_inj (List.append_cancel_left h3)
    obtain ⟨hinitial, _⟩ := quoteChars_append_inj (List.append_cancel_left h4)
    exact ⟨String.toList_inj.mp hdescription, String.toList_inj.mp hname,
      String.toList_inj.mp hkind, String.toList_inj.mp hinitial⟩
  · rintro ⟨hdescription, hname, hkind, hinitial⟩
    rw [Convar.line, Convar.line, hdescription, hname, hkind, hinitial]

/-! ### Sections -/

def Entry.ShowsSame (e f : Entry) : Prop :=
  e.key = f.key ∧ Json.display e.value = Json.display f.value

/-- The key and the text that a projection shows, if its value counts as true. -/
def Projection.shown? (metadata : Metadata) (p : Projection) : Option (String × String) :=
  ((metadata.lookup p.sourceKey).filter Json.isTruthy).map fun v =>
    (p.manifestKey, Json.display v)

/-- Two bodies of one kind that show the same; of the keys of a list only one is in use. -/
inductive Body.ShowsSame (metadata : Metadata) : Body → Body → Prop where
  | keyValue {entries others : List Entry}
      (hrows : List.Forall₂ Entry.ShowsSame entries others) :
      ShowsSame metadata (.keyValue entries) (.keyValue others)
  | packageMetadata {projections others : List Projection}
      (hrows : projections.filterMap (Projection.shown? metadata) =
        others.filterMap (Projection.shown? metadata)) :
      ShowsSame metadata (.packageMetadata projections) (.packageMetadata others)
  | list {singular plural singular' plural' : String} {items : List String}
      (hsingular : items.length = 1 → singular = singular')
      (hplural : 1 < items.length → plural = plural') :
      ShowsSame metadata (.list singular plural items) (.list singular' plural' items)
  | convarCategory {category : Category} {convars others : List Convar}
      (hrows : List.Forall₂ Convar.ShowsSame convars others) :
      ShowsSame metadata (.convarCategory category convars) (.convarCategory category others)

lemma entryLines_inj {entries others : List Entry} :
    entries.map Entry.line = others.map Entry.line ↔
      List.Forall₂ Entry.ShowsSame entries others := by
  simp only [map_eq_map_iff_forall₂, Entry.line, entryLine_inj]
  rfl

lemma convarLines_inj {convars others : List Convar} :
    convars.map Convar.line = others.map Convar.line ↔
      List.Forall₂ Convar.ShowsSame convars others := by
  simp only [map_eq_map_iff_forall₂, Convar.line_inj]

/-- The lines of projections are those of the keys and texts that they show. -/
lemma projectionLines_eq_map (metadata : Metadata) (projections : List Projection) :
    projections.filterMap (Projection.line? metadata) =
      (projections.filterMap (Projection.shown? metadata)).map fun m => entryLine m.1 m.2 := by
  rw [List.map_filterMap]
  congr 1
  funext p
  simp [Projection.line?, Projection.shown?, Projection.value?, Function.comp_def]

lemma entryLine_injective :
    Function.Injective fun m : String × String => entryLine m.1 m.2 := by
  intro m n h
  obtain ⟨hkey, hvalue⟩ := entryLine_inj.mp h
  exact Prod.ext hkey hvalue

lemma projectionLines_inj {metadata : Metadata} {projections others : List Projection} :
    projections.filterMap (Projection.line? metadata) =
        others.filterMap (Projection.line? metadata) ↔
      projections.filterMap (Projection.shown? metadata) =
        others.filterMap (Projection.shown? metadata) := by
  rw [projectionLines_eq_map, projectionLines_eq_map,
    (List.map_injective_iff.mpr entryLine_injective).eq_iff]

/-- A list of one item has one line, and a longer one has two more than it has items. -/
lemma length_listLines (singular plural : String) (items : List String) :
    (listLines singular plural items).length =
      if items.length ≤ 1 then items.length else items.length + 2 := by
  match items with
  | [] => rfl
  | [item] => rfl
  | a :: b :: items => simp [listLines]

lemma blockLines_inj {plural plural' : String} {items items' : List String}
    (h : 1 < items.length) (h' : 1 < items'.length) {singular singular' : String} :
    listLines singular plural items = listLines singular' plural' items' ↔
      plural = plural' ∧ items = items' := by
  match items, items' with
  | a :: b :: items, a' :: b' :: items' =>
    have hitem : Function.Injective fun item => indent ++ quote item ++ "," :=
      fun v w heq => (between_inj indent ",").mp heq
    rw [listLines, listLines, List.cons.injEq, String.append_left_inj, List.append_left_inj,
      (List.map_injective_iff.mpr hitem).eq_iff]
    all_goals simp

/-- The lines of a list tell its items and the key in use. -/
lemma listLines_inj {singular plural singular' plural' : String} {items items' : List String} :
    listLines singular plural items = listLines singular' plural' items' ↔
      items = items' ∧ (items.length = 1 → singular = singular') ∧
        (1 < items.length → plural = plural') := by
  constructor
  · intro h
    have hlines := congrArg List.length h
    rw [length_listLines, length_listLines] at hlines
    -- the number of lines already tells the number of items
    have hlength : items.length = items'.length := by
      split_ifs at hlines <;> omega
    match items, items' with
    | [], [] => simp
    | [item], [item'] =>
      rw [listLines, listLines, List.cons.injEq, entryLine_inj] at h
      simp [h.1.1, h.1.2]
    | a :: b :: items, a' :: b' :: items' =>
      obtain ⟨hplural, hitems⟩ := (blockLines_inj (by simp) (by simp)).mp h
      simp [hplural, hitems]
  · rintro ⟨rfl, hsingular, hplural⟩
    match items with
    | [] => rfl
    | [item] => rw [listLines, listLines, hsingular rfl]
    | a :: b :: items => exact (blockLines_inj (by simp) (by simp)).mpr ⟨hplural (by simp), rfl⟩

lemma categoryLines_inj {category category' : Category} {convars convars' : List Convar} :
    categoryLines category convars = categoryLines category' convars' ↔
      category = category' ∧ List.Forall₂ Convar.ShowsSame convars convars' := by
  cases category
  cases category'
  simp only [← convarLines_inj, categoryLines, List.cons_append, List.nil_append, List.cons.injEq,
    true_and, List.append_left_inj, between_inj, Category.mk.injEq, and_assoc]

/-- Bodies of one kind have the same lines exactly when they show the same. -/
lemma body_lines_inj {metadata : Metadata} {b b' : Body} (hkind : b.kind = b'.kind) :
    b.lines metadata = b'.lines metadata ↔ b.ShowsSame metadata b' := by
  constructor
  · intro h
    match b, b' with
    | .keyValue _, .keyValue _ => exact .keyValue (entryLines_inj.mp h)
    | .packageMetadata _, .packageMetadata _ => exact .packageMetadata (projectionLines_inj.mp h)
    | .list _ _ _, .list _ _ _ =>
      obtain ⟨rfl, hsingular, hplural⟩ := listLines_inj.mp h
      exact .list hsingular hplural
    | .convarCategory _ _, .convarCategory _ _ =>
      obtain ⟨rfl, hrows⟩ := categoryLines_inj.mp h
      exact .convarCategory hrows
  · intro h
    cases h with
    | keyValue hrows => exact entryLines_inj.mpr hrows
    | packageMetadata hrows => exact projectionLines_inj.mpr hrows
    | list hsingular hplural => exact listLines_inj.mpr ⟨rfl, hsingular, hplural⟩
    | convarCategory hrows => exact categoryLines_inj.mpr ⟨rfl, hrows⟩

/--
Two sections of one kind, both enabled and with rows, have the same lines exactly when they show the
same: the same keys, names and other texts, and values with the same plain text, position by
position. Nothing is asked of the texts, which may hold quotes, backslashes, blanks and braces.
-/
theorem lines_tell_what_is_shown (metadata : Metadata) (s t : Section) (hs : s.isRenderable)
    (ht : t.isRenderable) (hkind : s.kind = t.kind) :
    lines metadata s = lines metadata t ↔ s.body.ShowsSame metadata t.body := by
  rw [lines, lines, if_pos hs, if_pos ht]
  exact body_lines_inj hkind

/-- A key may look like a line itself, and a number shows like a text. -/
theorem lines_tell_what_is_shown_quoted :
    let s : Section := ⟨"a", true, .keyValue [⟨"a 'b' \x7b", .number (.integer 1)⟩]⟩
    let t : Section := ⟨"b", true, .keyValue [⟨"a 'b' \x7b", .text "1"⟩]⟩
    s.kind = t.kind ∧ lines ⟨[]⟩ s = ["a 'b' \x7b '1'"] ∧ s.body.ShowsSame ⟨[]⟩ t.body := by
  intro s t
  have hs : s.isRenderable := rfl
  have ht : t.isRenderable := rfl
  refine ⟨rfl, by decide, ?_⟩
  exact (lines_tell_what_is_shown ⟨[]⟩ s t hs ht rfl).mp (by decide)

end ResourceBuild.Manifest
