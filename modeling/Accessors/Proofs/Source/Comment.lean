/-
  Accessors.Proofs.Source.Comment — which comment documents a line, and what it says.

  The documentation of a line is the comment that ends right above it (`Documents`): it
  starts at the nearest opening line, every line below that one starts with an asterisk,
  and the last one ends with the closing mark. The lines are sought one by one upward; a
  line either opens the comment or has to go on with it (`spans_succ`). Of the comment the
  last tag that has a type counts, and the first line of words (`said`): a later tag
  writes over an earlier one, a later line of words does not (`foldl_add`).
  - `forall_read`: all that is read is a line of the comment, a word of one, or some of
    its words with spaces between them;
  - `read_documented`: the documentation is what the comment says, from wherever in a
    document it is read, and without such a comment there is none.
-/
import Accessors.Proofs.Source.Walk
import Accessors.Proofs.Text.Trim

namespace Accessors

namespace DocBlock

/-! ## The comment above a line -/

def opens (line : Text) : Bool := Text.startsWith opener (Text.trim line)

def goesOn (line : Text) : Bool := Text.startsWith ['*'] (Text.trim line)

def closes (line : Text) : Bool := Text.endsWith closer (Text.trim line)

/-- The line `k` is the nearest above the line `n` that opens a comment, and all between
    them go on with it. -/
structure Spans (lines : List Text) (k n : Nat) : Prop where
  above : k < n
  opens : ∃ l ∈ lines[k]?, DocBlock.opens l = true
  nearest : ∀ i < n, k < i → ∀ l ∈ lines[i]?, DocBlock.opens l = false
  goesOn : ∀ i < n, k < i → ∀ l ∈ lines[i]?, DocBlock.goesOn l = true

/-- The lines from `k` on are a comment that ends right above the line `n`. -/
structure Documents (lines : List Text) (k n : Nat) : Prop extends Spans lines k n where
  closes : ∃ l ∈ lines[n - 1]?, DocBlock.closes l = true

/-- The lines from `k` on, above the line `n`. -/
def between (lines : List Text) (k n : Nat) : List Text := (lines.take n).drop k

variable {lines : List Text} {k n : Nat}

theorem length_between (h : n ≤ lines.length) (k : Nat) : (between lines k n).length = n - k := by
  unfold between
  rw [List.length_drop, List.length_take, Nat.min_eq_left h]

theorem between_succ {l : Text} (hl : lines[n]? = some l) (h : k ≤ n) :
    between lines k (n + 1) = between lines k n ++ [l] := by
  have hlength : n < lines.length := (List.getElem?_eq_some_iff.1 hl).1
  unfold between
  rw [List.take_add_one, hl, Option.toList_some, List.drop_append_of_le_length]
  rw [List.length_take]
  omega

theorem between_self (lines : List Text) (k : Nat) : between lines k k = [] := by
  unfold between
  rw [List.drop_eq_nil_iff, List.length_take]
  omega

/-- What all the lines between are, the lowest one is, and so are the others. -/
theorem forall_between_succ {P : Text → Prop} {l : Text} (hl : lines[n]? = some l) (hk : k < n) :
    (∀ i < n + 1, k < i → ∀ m ∈ lines[i]?, P m) ↔ P l ∧ ∀ i < n, k < i → ∀ m ∈ lines[i]?, P m := by
  constructor
  · intro h
    exact ⟨h n (Nat.lt_succ_self n) hk l hl, fun i hi => h i (by omega)⟩
  · intro h i hi hki m hm
    rcases Nat.lt_succ_iff_lt_or_eq.1 hi with hi | rfl
    · exact h.2 i hi hki m hm
    · obtain rfl := Option.some.inj (hl.symm.trans hm)
      exact h.1

/-- The lowest line opens the comment, or it goes on with one that is open above it. -/
theorem spans_succ {l : Text} (hl : lines[n]? = some l) :
    Spans lines k (n + 1) ↔ if opens l then k = n else goesOn l = true ∧ Spans lines k n := by
  by_cases hopens : opens l = true
  · rw [if_pos hopens]
    constructor
    · intro h
      have habove := h.above
      by_contra hne
      have hnot := ((forall_between_succ hl (by omega)).1 h.nearest).1
      rw [hopens] at hnot
      cases hnot
    · intro h
      subst h
      exact ⟨Nat.lt_succ_self k, ⟨l, hl, hopens⟩, fun i hi hki => by omega, fun i hi hki => by omega⟩
  · rw [if_neg hopens]
    constructor
    · intro h
      have hk : k < n := by
        have habove := h.above
        by_contra hnk
        obtain rfl : k = n := by omega
        obtain ⟨m, hm, ho⟩ := h.opens
        obtain rfl := Option.some.inj (hl.symm.trans hm)
        exact hopens ho
      obtain ⟨-, hnearest⟩ := (forall_between_succ hl hk).1 h.nearest
      obtain ⟨hgoesOn, hrest⟩ := (forall_between_succ hl hk).1 h.goesOn
      exact ⟨hgoesOn, hk, h.opens, hnearest, hrest⟩
    · intro h
      obtain ⟨hgoesOn, hspans⟩ := h
      have hk := hspans.above
      exact ⟨by omega, hspans.opens, (forall_between_succ hl hk).2 ⟨Bool.eq_false_iff.2 hopens, hspans.nearest⟩,
        (forall_between_succ hl hk).2 ⟨hgoesOn, hspans.goesOn⟩⟩

theorem commentFrom?_cons (done : List Text) (l : Text) (above : List Text) : commentFrom? done (l :: above) =
    if opens l then some (Text.trim l :: done)
    else if goesOn l then commentFrom? (Text.trim l :: done) above else .none := rfl

theorem comment?_cons (l : Text) (above : List Text) :
    comment? (l :: above) = if closes l then commentFrom? [] (l :: above) else .none := rfl

theorem commentFrom?_eq_some {done c : List Text} (h : n ≤ lines.length) :
    commentFrom? done (lines.take n).reverse = some c ↔
      ∃ k, Spans lines k n ∧ c = (between lines k n).map Text.trim ++ done := by
  -- On the number of lines that are left; each line that is passed goes before `done`.
  induction n generalizing done with
  | zero =>
    constructor
    · intro hc
      cases hc
    · rintro ⟨k, hk, -⟩
      exact absurd hk.above (Nat.not_lt_zero k)
  | succ n ih =>
    obtain ⟨l, hl⟩ := exists_line (show n < lines.length by omega)
    simp only [spans_succ hl]
    rw [reverse_take_succ hl, commentFrom?_cons]
    by_cases hopens : opens l = true
    · have hline : (between lines n (n + 1)).map Text.trim = [Text.trim l] := by
        rw [between_succ hl (Nat.le_refl n), between_self]
        rfl
      simp only [if_pos hopens, exists_eq_left, hline]
      rw [Option.some_inj, List.singleton_append]
      exact eq_comm
    · simp only [if_neg hopens]
      by_cases hgoesOn : goesOn l = true
      · rw [if_pos hgoesOn, ih (by omega)]
        refine exists_congr fun k => ?_
        rw [and_iff_right hgoesOn]
        refine and_congr_right fun hspans => ?_
        rw [between_succ hl (Nat.le_of_lt hspans.above), List.map_append, List.append_assoc]
        rfl
      · rw [if_neg hgoesOn]
        constructor
        · intro hc
          cases hc
        · rintro ⟨k, ⟨hg, -⟩, -⟩
          exact absurd hg hgoesOn

theorem comment?_eq_some {c : List Text} (h : n ≤ lines.length) :
    comment? (lines.take n).reverse = some c ↔ ∃ k, Documents lines k n ∧ c = (between lines k n).map Text.trim := by
  cases n with
  | zero =>
    constructor
    · intro hc
      cases hc
    · rintro ⟨k, hk, -⟩
      exact absurd hk.above (Nat.not_lt_zero k)
  | succ n =>
    obtain ⟨l, hl⟩ := exists_line (show n < lines.length by omega)
    have hfrom := @commentFrom?_eq_some lines (n + 1) [] c h
    simp only [List.append_nil] at hfrom
    rw [reverse_take_succ hl] at hfrom ⊢
    rw [comment?_cons]
    by_cases hcloses : closes l = true
    · rw [if_pos hcloses, hfrom]
      exact exists_congr fun k => and_congr_left fun _ => ⟨fun hs => ⟨hs, l, hl, hcloses⟩, fun hd => hd.toSpans⟩
    · rw [if_neg hcloses]
      constructor
      · intro hc
        cases hc
      · rintro ⟨k, hd, -⟩
        obtain ⟨m, hm, hc⟩ := hd.closes
        obtain rfl := Option.mem_unique (show l ∈ lines[n]? from hl) hm
        exact absurd hc hcloses

/-! ## What a comment says -/

/-- The type that a tag of a variable gives, and the words behind it. -/
def tag? (content : Text) : Option (Text × List Text) :=
  match Text.words content with
  | tag :: type :: more => if tag = "@var".toList then some (type, more) else .none
  | _ => .none

def isSummary (content : Text) : Bool := !content.isEmpty && !Text.startsWith ['@'] content

/-- By its last tag with a type and its first line of words. -/
def said (comment : List Text) : DocBlock :=
  let contents := comment.map content
  let tag := (contents.filterMap tag?).getLast?
  ⟨tag.map Prod.fst, (contents.find? isSummary).or (tag.bind fun t => remarkOf? t.2)⟩

/-- The notes of a summary and a tag. -/
def Notes.of (summary : Option Text) (tag : Option (Text × List Text)) : Notes :=
  ⟨summary, tag.map Prod.fst, tag.bind fun t => remarkOf? t.2⟩

theorem words_of_tag? {content type : Text} {more : List Text} (h : tag? content = some (type, more)) :
    Text.words content = "@var".toList :: type :: more := by
  unfold tag? at h
  split at h
  · rename_i tag _ _ hwords
    split at h
    · rename_i htag
      obtain ⟨rfl, rfl⟩ := Prod.mk.inj (Option.some.inj h)
      rw [hwords, htag]
    · cases h
  · cases h

/-- A tag is the first thing on its line. -/
theorem startsWith_of_tag? {content : Text} (hflush : Text.Flush content) {t : Text × List Text}
    (h : tag? content = some t) : Text.startsWith ['@'] content = true := by
  have hwords := words_of_tag? h
  cases content with
  | nil => cases h
  | cons c r =>
    have hblank : Text.isBlank c = false := Text.flush_cons.1 hflush
    have hfirst : Text.words (c :: r) = (c :: (Text.wordsFrom r).1) :: (Text.wordsFrom r).2 := by
      unfold Text.words
      rw [Text.wordsFrom_cons, hblank]
      rfl
    rw [hfirst] at hwords
    obtain rfl : c = '@' := (List.cons.inj (List.cons.inj hwords).1).1
    rfl

theorem add_of {content : Text} (hflush : Text.Flush content) (summary : Option Text)
    (tag : Option (Text × List Text)) : (Notes.of summary tag).add content =
      Notes.of (summary.or (Option.guard isSummary content)) ((tag? content).or tag) := by
  unfold Notes.add
  by_cases hempty : content.isEmpty = true
  · obtain rfl := List.isEmpty_iff.1 hempty
    have hnone : Option.guard isSummary ([] : Text) = .none := rfl
    rw [if_pos hempty, hnone, Option.or_none]
    rfl
  rw [if_neg hempty]
  by_cases hat : Text.startsWith ['@'] content = true
  · have hnone : Option.guard isSummary content = .none := by
      rw [Option.guard_eq_none_iff]
      simp [isSummary, hat]
    rw [hat, hnone, Option.or_none]
    simp only [Bool.not_true, Bool.false_eq_true, if_false]
    unfold tag?
    cases Text.words content with
    | nil => rfl
    | cons first words =>
      cases words with
      | nil => rfl
      | cons type more =>
        by_cases hvar : first = "@var".toList
        · simp only [if_pos hvar]
          rfl
        · simp only [if_neg hvar]
          rfl
  · have hsome : Option.guard isSummary content = some content := by
      rw [Option.guard_eq_some_iff]
      simp [isSummary, hat, hempty]
    have htag : tag? content = .none := by
      cases ht : tag? content with
      | none => rfl
      | some t => exact absurd (startsWith_of_tag? hflush ht) hat
    rw [Bool.eq_false_iff.2 hat, hsome, htag]
    rfl

/-- The first summary stays, and the last tag writes over those before it. -/
theorem foldl_add {contents : List Text} (hflush : ∀ l ∈ contents, Text.Flush l) (summary : Option Text)
    (tag : Option (Text × List Text)) : contents.foldl Notes.add (Notes.of summary tag) =
      Notes.of (summary.or (contents.find? isSummary)) ((contents.filterMap tag?).getLast?.or tag) := by
  induction contents generalizing summary tag with
  | nil =>
    rw [List.foldl_nil, List.find?_nil, Option.or_none]
    rfl
  | cons l contents ih =>
    have hfind : (Option.guard isSummary l).or (contents.find? isSummary) = (l :: contents).find? isSummary := by
      rw [List.find?_cons, Option.guard]
      cases isSummary l <;> rfl
    have hlast : (contents.filterMap tag?).getLast?.or ((tag? l).or tag) =
        ((l :: contents).filterMap tag?).getLast?.or tag := by
      rw [List.filterMap_cons]
      cases tag? l with
      | none => rfl
      | some t =>
        rw [List.getLast?_cons]
        cases (contents.filterMap tag?).getLast? <;> rfl
    rw [List.foldl_cons, add_of (hflush l List.mem_cons_self), ih fun m hm => hflush m (List.mem_cons_of_mem l hm),
      Option.or_assoc, hfind, hlast]

theorem ofComment_eq (comment : List Text) : ofComment comment = said comment := by
  have hflush : ∀ l ∈ comment.map content, Text.Flush l := by
    intro l hl
    obtain ⟨m, -, rfl⟩ := List.mem_map.1 hl
    exact Text.flush_trim _
  have hnotes := foldl_add hflush .none .none
  rw [Option.none_or, Option.or_none] at hnotes
  unfold ofComment notes
  have hstart : (⟨.none, .none, .none⟩ : Notes) = Notes.of .none .none := rfl
  rw [hstart, hnotes]
  rfl

/-- A remark is put together from some of the words. -/
theorem remarkOf?_eq_some {words : List Text} {t : Text} (h : remarkOf? words = some t) :
    ∃ ws, ws ≠ [] ∧ (∀ w ∈ ws, w ∈ words) ∧ t = Text.joinWith [' '] ws := by
  unfold remarkOf? at h
  cases words with
  | nil => cases h
  | cons w ws =>
    simp only at h
    split at h
    · split at h
      · cases h
      · rename_i hne
        exact ⟨ws, by simpa using hne, fun v hv => List.mem_cons_of_mem _ hv, (Option.some.inj h).symm⟩
    · split at h
      · cases h
      · exact ⟨w :: ws, by simp, fun _ hv => hv, (Option.some.inj h).symm⟩

/-- What documentation says is a line of the comment, a word of one, or some of its words
    with spaces between them. -/
theorem forall_ofComment {P : Text → Prop} {comment : List Text}
    (hline : ∀ l ∈ comment, content l ≠ [] → P (content l)) (hword : ∀ l ∈ comment, ∀ w ∈ Text.words (content l), P w)
    (hjoin : ∀ ws, ws ≠ [] → (∀ w ∈ ws, P w) → P (Text.joinWith [' '] ws)) :
    (∀ t ∈ (ofComment comment).type, P t) ∧ ∀ t ∈ (ofComment comment).description, P t := by
  have htag : ∀ type more, ((comment.map content).filterMap tag?).getLast? = some (type, more) →
      P type ∧ ∀ w ∈ more, P w := by
    intro type more h
    obtain ⟨c, hc, hcontent⟩ := List.mem_filterMap.1 (List.mem_of_getLast? h)
    obtain ⟨l, hl, rfl⟩ := List.mem_map.1 hc
    have hwords := hword l hl
    rw [words_of_tag? hcontent] at hwords
    exact List.forall_mem_cons.1 (List.forall_mem_cons.1 hwords).2
  rw [ofComment_eq]
  constructor
  · intro t ht
    obtain ⟨⟨type, more⟩, h, rfl⟩ := Option.map_eq_some_iff.1 ht
    exact (htag type more h).1
  · intro t ht
    rcases Option.or_eq_some_iff.1 ht with ht | ⟨-, ht⟩
    · obtain ⟨l, hl, rfl⟩ := List.mem_map.1 (List.mem_of_find?_eq_some ht)
      refine hline l hl fun hnil => ?_
      have hsummary := List.find?_some ht
      rw [hnil] at hsummary
      cases hsummary
    · obtain ⟨⟨type, more⟩, h, hremark⟩ := Option.bind_eq_some_iff.1 ht
      obtain ⟨ws, hne, hws, rfl⟩ := remarkOf?_eq_some hremark
      exact hjoin ws hne fun w hw => (htag type more h).2 w (hws w hw)

theorem forall_read {P : Text → Prop} {above : List Text}
    (hline : ∀ comment, comment? above = some comment → ∀ l ∈ comment, content l ≠ [] → P (content l))
    (hword : ∀ comment, comment? above = some comment → ∀ l ∈ comment, ∀ w ∈ Text.words (content l), P w)
    (hjoin : ∀ ws, ws ≠ [] → (∀ w ∈ ws, P w) → P (Text.joinWith [' '] ws)) :
    (∀ t ∈ (read above).type, P t) ∧ ∀ t ∈ (read above).description, P t := by
  unfold read
  cases hcomment : comment? above with
  | none => exact ⟨by simp [none], by simp [none]⟩
  | some comment => exact forall_ofComment (hline comment hcomment) (hword comment hcomment) hjoin

/-! ## The same comment elsewhere -/

/-- The lines between `k` and `n`, with others above and below them. -/
theorem getElem?_moved (h : n ≤ lines.length) (above below : List Text) {i : Nat} (h₁ : above.length ≤ i)
    (h₂ : i < above.length + (n - k)) :
    (above ++ between lines k n ++ below)[i]? = lines[i - above.length + k]? := by
  have hlength := length_between h k
  rw [List.append_assoc, List.getElem?_append_right h₁, List.getElem?_append_left (by omega)]
  unfold between
  rw [List.getElem?_drop, List.getElem?_take_of_lt (by omega), Nat.add_comm k]

theorem between_moved (h : n ≤ lines.length) (above below : List Text) :
    between (above ++ between lines k n ++ below) above.length (above.length + (n - k)) = between lines k n := by
  have hlength : (above ++ between lines k n).length = above.length + (n - k) := by
    rw [List.length_append, length_between h]
  rw [between, ← hlength, List.take_left, List.drop_left]

theorem Documents.moved (hd : Documents lines k n) (h : n ≤ lines.length) (above below : List Text) :
    Documents (above ++ between lines k n ++ below) above.length (above.length + (n - k)) := by
  have hk := hd.above
  have hline := fun i => getElem?_moved (k := k) h above below (i := i)
  refine ⟨⟨by omega, ?_, fun i hi hai => ?_, fun i hi hai => ?_⟩, ?_⟩
  · rw [hline _ (Nat.le_refl _) (by omega), Nat.sub_self, Nat.zero_add]
    exact hd.opens
  · rw [hline i (by omega) hi]
    exact hd.nearest _ (by omega) (by omega)
  · rw [hline i (by omega) hi]
    exact hd.goesOn _ (by omega) (by omega)
  · have hlast : above.length + (n - k) - 1 - above.length + k = n - 1 := by omega
    rw [hline _ (by omega) (by omega), hlast]
    exact hd.closes

theorem read_eq_said (h : n ≤ lines.length) (hd : Documents lines k n) :
    read (lines.take n).reverse = said ((between lines k n).map Text.trim) := by
  unfold read
  rw [(comment?_eq_some h).2 ⟨k, hd, rfl⟩]
  exact ofComment_eq _

theorem read_eq_none (h : n ≤ lines.length) (hnot : ∀ k, ¬Documents lines k n) :
    read (lines.take n).reverse = none := by
  unfold read
  cases hc : comment? (lines.take n).reverse with
  | none => rfl
  | some c =>
    obtain ⟨k, hd, -⟩ := (comment?_eq_some h).1 hc
    exact absurd hd (hnot k)

/-- The documentation above any line, or below the last one. It is read from lines that
    there are. It is what the comment that ends there says, whatever lines stand above and
    below that comment; and if none ends there it is empty, whatever comments stand
    further up. -/
theorem read_documented (h : n ≤ lines.length) :
    readAt lines n = .ok (read (lines.take n).reverse) ∧
    (∀ k, Documents lines k n → read (lines.take n).reverse = said ((between lines k n).map Text.trim) ∧
      ∀ above below, readAt (above ++ between lines k n ++ below) (above.length + (n - k)) = readAt lines n) ∧
    ((∀ k, ¬Documents lines k n) → read (lines.take n).reverse = none) := by
  refine ⟨readAt_eq h, fun k hd => ⟨read_eq_said h hd, fun above below => ?_⟩, read_eq_none h⟩
  have hlength : above.length + (n - k) ≤ (above ++ between lines k n ++ below).length := by
    rw [List.length_append, List.length_append, length_between h]
    exact Nat.le_add_right _ _
  rw [readAt_eq hlength, readAt_eq h, read_eq_said hlength (hd.moved h above below), read_eq_said h hd,
    between_moved h]

/-- Two comments, the lower one with two tags, and the line that it documents. -/
def sampleComments : List Text := ["/** Other */".toList, "/**".toList, " * @var string old".toList,
  " * @var ?int $n  the rest".toList, " */".toList, "$n;".toList]

theorem read_documented_sample : Documents sampleComments 1 5 ∧
    read (sampleComments.take 5).reverse = ⟨some "?int".toList, some "the rest".toList⟩ ∧
    (∀ k, ¬Documents sampleComments k 3) ∧ read (sampleComments.take 3).reverse = none := by
  have hlength : 5 ≤ sampleComments.length := by decide
  have hdocuments : Documents sampleComments 1 5 :=
    ⟨⟨by decide, ⟨_, rfl, by decide⟩, by decide, by decide⟩, ⟨_, rfl, by decide⟩⟩
  have hnot : ∀ k, ¬Documents sampleComments k 3 := by
    intro k hk
    obtain ⟨l, hl, hcloses⟩ := hk.closes
    obtain rfl := Option.some.inj hl
    exact absurd hcloses (by decide)
  have hsaid : said ((between sampleComments 1 5).map Text.trim) = ⟨some "?int".toList, some "the rest".toList⟩ := by
    decide +kernel
  have hread := ((read_documented hlength).2.1 1 hdocuments).1
  have hnone := (read_documented (show 3 ≤ sampleComments.length by decide)).2.2 hnot
  exact ⟨hdocuments, hread.trans hsaid, hnot, hnone⟩

end DocBlock

end Accessors
