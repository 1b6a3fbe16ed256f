/-
  Accessors.Proofs.Value.Reader — what is read is what is written.

  The reader goes through a value part by part, and so do the proofs: one step of it for
  each of a value, its items and its members (`value_step`, `items_step`,
  `members_step`), by which all that holds of the parts holds of the whole, with as much
  fuel as twice the length.
  - `read_eq_ok`: a value is read if and only if the text writes it within the bounds;
  - `read_beyond`: a text that writes one beyond them comes to a bound and to nothing else;
  - `read_wholeNumber`: it is too many digits if and only if a whole number of too many
    stands where a value is due, with everything before it in order;
  - `read_tooDeep`, `due_of_read`: it is the depth if a list or an object starts where
    none can be nested any more, and only where next to none can be.
-/
import Accessors.Proofs.Value.Scalars

namespace Accessors.Value

variable {margin : Nat}

/-! ## Steps of the reader -/

section Steps

variable (fuel depth : Nat) (r : Text)

theorem readValue_quote : readValue margin (fuel + 1) depth ('\x22' :: r) =
    (stringAt margin depth r).map fun s => (.str s.1, s.2) := by
  cases depth <;> rfl

theorem readValue_list : readValue margin (fuel + 1) (depth + 1) ('[' :: r) = match skipGap r with
    | ']' :: r => .ok (.list [], r)
    | r => readItems margin fuel depth [] r := rfl

theorem readValue_object : readValue margin (fuel + 1) (depth + 1) ('\x7b' :: r) = match skipGap r with
    | '\x7d' :: r => .ok (.object [], r)
    | r => readMembers margin fuel depth [] r := rfl

theorem readValue_scalar {t : Text} (h : ∀ c ∈ t.head?, c ≠ '\x22' ∧ c ≠ '[' ∧ c ≠ '\x7b') :
    readValue margin (fuel + 1) depth t = scalar depth t := by
  cases t with
  | nil => cases depth <;> rfl
  | cons c r =>
    obtain ⟨hquote, hlist, hobject⟩ := h c rfl
    rw [readValue]
    · exact fun _ he => hquote (List.cons.inj he).1
    · exact fun _ he => absurd (List.cons.inj he).1 hlist
    · exact fun _ _ he => absurd (List.cons.inj he).1 hlist
    · exact fun _ he => absurd (List.cons.inj he).1 hobject
    · exact fun _ _ he => absurd (List.cons.inj he).1 hobject

theorem readItems_succ (done : List Value) (t : Text) : readItems margin (fuel + 1) depth done t =
    match readValue margin fuel depth t with
    | .error stop => .error stop
    | .ok (v, r) =>
      match skipGap r with
      | ']' :: r => .ok (.list (v :: done).reverse, r)
      | ',' :: r => readItems margin fuel depth (v :: done) (skipGap r)
      | r => .error (Stop.told margin depth (.at .comma r)) := rfl

/-- What is behind a value among items. -/
theorem readItems_ok {t : Text} {v : Value} (h : readValue margin fuel depth t = .ok (v, r)) (done : List Value) :
    readItems margin (fuel + 1) depth done t =
      match skipGap r with
      | ']' :: r => .ok (.list (v :: done).reverse, r)
      | ',' :: r => readItems margin fuel depth (v :: done) (skipGap r)
      | r => .error (Stop.told margin depth (.at .comma r)) := by
  rw [readItems_succ, h]

theorem readMembers_quote (done : Entries Codes Value) : readMembers margin (fuel + 1) depth done ('\x22' :: r) =
    match stringAt margin depth r with
    | .error stop => .error stop
    | .ok (name, r) =>
      match skipGap r with
      | ':' :: r =>
        match readValue margin fuel depth (skipGap r) with
        | .error stop => .error stop
        | .ok (v, r) =>
          match skipGap r with
          | '\x7d' :: r => .ok (.object (Entries.assign name v done), r)
          | ',' :: r => readMembers margin fuel depth (Entries.assign name v done) (skipGap r)
          | r => .error (Stop.told margin depth (.at .comma r))
      | r => .error (Stop.told margin depth (.at .colon r)) := rfl

end Steps

/-! ## How values start, and what follows them -/

/-- What can come behind a value: a blank, a comma, the end of a list or an object, or
    nothing. -/
def Follows (r : Text) : Prop := ∀ c ∈ r.head?, isGap c = true ∨ c = ',' ∨ c = ']' ∨ c = '\x7d'

/-- What a value or a member can start with. -/
def Starts (t : Text) : Prop := ∃ c r, t = c :: r ∧ isGap c = false ∧ c ≠ ']' ∧ c ≠ '\x7d' ∧ c ≠ '\ufeff'

theorem Starts.append {t : Text} (h : Starts t) (r : Text) : Starts (t ++ r) := by
  obtain ⟨c, u, rfl, hc⟩ := h
  exact ⟨c, u ++ r, rfl, hc⟩

theorem Starts.skipGap {t g : Text} (h : Starts t) (hg : Gap g) : skipGap (g ++ t) = t := by
  obtain ⟨c, u, rfl, hc, -⟩ := h
  rw [skipGap_append hg, skipGap_of_head]
  intro d hd
  rwa [← Option.some.inj hd]

theorem Starts.length_pos {t : Text} (h : Starts t) : 0 < t.length := by
  obtain ⟨c, u, rfl, -⟩ := h
  exact Nat.succ_pos _

theorem digit_starts {c : Char} (hc : isAsciiDigit c = true) :
    isGap c = false ∧ c ≠ ',' ∧ c ≠ ']' ∧ c ≠ '\x7d' ∧ c ≠ '\ufeff' := by
  refine ⟨?_, ?_, ?_, ?_, ?_⟩
  · rw [← Bool.not_eq_true]
    intro hgap
    simp only [isGap, Bool.or_eq_true, decide_eq_true_eq] at hgap
    rcases hgap with ((rfl | rfl) | rfl) | rfl <;> exact absurd hc (by decide)
  all_goals
    rintro rfl
    exact absurd hc (by decide)

theorem starts_signed {w : Text} (hw : Whole w) (negative : Bool) (u : Text) : Starts (signText negative ++ (w ++ u)) := by
  obtain ⟨c, t, rfl, hc⟩ := head_whole hw
  cases negative with
  | true => exact ⟨'-', _, rfl, by decide⟩
  | false =>
    obtain ⟨hgap, -, hrest⟩ := digit_starts hc
    exact ⟨c, t ++ u, rfl, hgap, hrest⟩

theorem starts_quoted {q : Text} {s : Codes} (h : Quoted q s) : Starts q := by
  cases h
  exact ⟨_, _, rfl, by decide⟩

theorem starts_writes {digits d : Nat} {p : Text} {v : Value} (h : Writes digits d p v) : Starts p := by
  cases h with
  | named hmem _ =>
    have hnames : ∀ e ∈ named, e.1 ≠ [] ∧
        e.1.head?.all (fun c => isGap c = false ∧ c ≠ ']' ∧ c ≠ '\x7d' ∧ c ≠ '\ufeff') = true := by decide
    obtain ⟨hne, hhead⟩ := hnames _ hmem
    obtain ⟨c, u, rfl⟩ := List.exists_cons_of_ne_nil hne
    exact ⟨c, u, rfl, of_decide_eq_true hhead⟩
  | number hn =>
    obtain ⟨negative, w, u, hw, rfl⟩ := exists_signed hn
    exact starts_signed hw negative u
  | str hq => exact starts_quoted hq
  | noItems _ | items _ _ | noMembers _ | members _ _ => exact ⟨_, _, rfl, by decide⟩

theorem starts_member {digits d : Nat} {p : Text} {m : Codes × Value} (h : WritesMember digits d p m) : Starts p := by
  cases h with
  | mk hq _ _ _ => exact (starts_quoted hq).append _

theorem starts_items {digits d : Nat} {p : Text} {vs : List Value} (h : WritesItems digits d p vs) : Starts p := by
  cases h with
  | last hv _ => exact (starts_writes hv).append _
  | more hv _ _ _ => exact (starts_writes hv).append _

theorem starts_members {digits d : Nat} {p : Text} {ms : List (Codes × Value)} (h : WritesMembers digits d p ms) :
    Starts p := by
  cases h with
  | last hm _ => exact (starts_member hm).append _
  | more hm _ _ _ => exact (starts_member hm).append _

theorem Follows.gap {g r : Text} (hr : Follows r) (hg : Gap g) : Follows (g ++ r) := by
  intro c hc
  cases g with
  | nil => exact hr c hc
  | cons d g =>
    obtain rfl := Option.some.inj hc
    exact .inl (hg d List.mem_cons_self)

theorem Follows.ends {r : Text} (h : Follows r) : Ends r := by
  have hnot : ∀ {c : Char} {u : Text}, c :: u <+: r → isGap c = true ∨ c = ',' ∨ c = ']' ∨ c = '\x7d' := by
    rintro c u ⟨v, rfl⟩
    exact h c rfl
  refine ⟨fun c hc => ?_, fun f ds hf hne hpre => ?_, fun e n he hne hpre => ?_⟩
  · rw [← Bool.not_eq_true]
    intro hdigit
    obtain ⟨hgap, hcomma, hlist, hobject, -⟩ := digit_starts hdigit
    rcases h c hc with hg | hc | hc | hc
    · rw [hgap] at hg
      cases hg
    · exact hcomma hc
    · exact hlist hc
    · exact hobject hc
  · cases hf with
    | none => exact hne rfl
    | some _ => exact absurd (hnot hpre) (by decide)
  · cases he with
    | none => exact hne rfl
    | some hmark _ _ => rcases hmark with rfl | rfl <;> exact absurd (hnot hpre) (by decide)

/-! ## One part after the other -/

section Parts

variable {fuel depth : Nat} {g g' p t r : Text}

theorem readValue_noItems (hg : Gap g) :
    readValue margin (fuel + 1) (depth + 1) ('[' :: (g ++ ']' :: r)) = .ok (.list [], r) := by
  have hend : skipGap (g ++ ']' :: r) = ']' :: r := by
    rw [skipGap_append hg]
    rfl
  rw [readValue_list, hend]
  rfl

theorem readValue_items (hg : Gap g) (ht : Starts t) :
    readValue margin (fuel + 1) (depth + 1) ('[' :: (g ++ t)) = readItems margin fuel depth [] t := by
  rw [readValue_list, ht.skipGap hg]
  obtain ⟨c, u, rfl, -, hend, -⟩ := ht
  split
  · rename_i he
    exact absurd (List.cons.inj he).1 hend
  · rfl

theorem readValue_noMembers (hg : Gap g) :
    readValue margin (fuel + 1) (depth + 1) ('\x7b' :: (g ++ '\x7d' :: r)) = .ok (.object [], r) := by
  have hend : skipGap (g ++ '\x7d' :: r) = '\x7d' :: r := by
    rw [skipGap_append hg]
    rfl
  rw [readValue_object, hend]
  rfl

theorem readValue_members (hg : Gap g) (ht : Starts t) :
    readValue margin (fuel + 1) (depth + 1) ('\x7b' :: (g ++ t)) = readMembers margin fuel depth [] t := by
  rw [readValue_object, ht.skipGap hg]
  obtain ⟨c, u, rfl, -, -, hend, -⟩ := ht
  split
  · rename_i he
    exact absurd (List.cons.inj he).1 hend
  · rfl

theorem readItems_error {stop : Stop} (h : readValue margin fuel depth t = .error stop) (done : List Value) :
    readItems margin (fuel + 1) depth done t = .error stop := by
  rw [readItems_succ, h]

theorem readItems_last {v : Value} (h : readValue margin fuel depth t = .ok (v, g ++ ']' :: r)) (hg : Gap g)
    (done : List Value) : readItems margin (fuel + 1) depth done t = .ok (.list (done.reverse ++ [v]), r) := by
  have hend : skipGap (g ++ ']' :: r) = ']' :: r := by
    rw [skipGap_append hg]
    rfl
  rw [readItems_ok _ _ _ h, hend, ← List.reverse_cons]
  rfl

theorem readItems_more {v : Value} (h : readValue margin fuel depth t = .ok (v, g ++ ',' :: (g' ++ r))) (hg : Gap g)
    (hg' : Gap g') (hr : Starts r) (done : List Value) :
    readItems margin (fuel + 1) depth done t = readItems margin fuel depth (v :: done) r := by
  have hcomma : skipGap (g ++ ',' :: (g' ++ r)) = ',' :: (g' ++ r) := by
    rw [skipGap_append hg]
    rfl
  rw [readItems_ok _ _ _ h, hcomma]
  show readItems margin fuel depth (v :: done) (skipGap (g' ++ r)) = _
  rw [hr.skipGap hg']

theorem stringAt_quoted {q : Text} {name : Codes} (hq : Quoted q name) (margin depth : Nat) (r : Text) :
    ∃ u, q ++ r = '\x22' :: u ∧ stringAt margin depth u = .ok (name, r) := by
  obtain ⟨hpieces⟩ := hq
  rename_i t ns
  refine ⟨t ++ '\x22' :: r, by simp, ?_⟩
  rw [stringAt, stringFrom_quoted _ _ hpieces]
  rfl

/-- A name and a colon, and what is read behind them. -/
theorem readMembers_member {q : Text} {name : Codes} (hq : Quoted q name) (hg : Gap g) (hg' : Gap g') (ht : Starts t)
    (done : Entries Codes Value) : readMembers margin (fuel + 1) depth done (q ++ (g ++ ':' :: (g' ++ t))) =
      match readValue margin fuel depth t with
      | .error stop => .error stop
      | .ok (v, r) =>
        match skipGap r with
        | '\x7d' :: r => .ok (.object (Entries.assign name v done), r)
        | ',' :: r => readMembers margin fuel depth (Entries.assign name v done) (skipGap r)
        | r => .error (Stop.told margin depth (.at .comma r)) := by
  obtain ⟨u, hu, hstring⟩ := stringAt_quoted hq margin depth (g ++ ':' :: (g' ++ t))
  have hcolon : skipGap (g ++ ':' :: (g' ++ t)) = ':' :: (g' ++ t) := by
    rw [skipGap_append hg]
    rfl
  rw [hu, readMembers_quote, hstring]
  dsimp only
  rw [hcolon]
  have hbehind := ht.skipGap hg'
  simp only [hbehind]

theorem readMembers_error {q : Text} {name : Codes} {stop : Stop} (hq : Quoted q name) (hg : Gap g) (hg' : Gap g')
    (ht : Starts t) (h : readValue margin fuel depth t = .error stop) (done : Entries Codes Value) :
    readMembers margin (fuel + 1) depth done (q ++ (g ++ ':' :: (g' ++ t))) = .error stop := by
  rw [readMembers_member hq hg hg' ht, h]

theorem readMembers_last {q gap : Text} {name : Codes} {v : Value} (hq : Quoted q name) (hg : Gap g) (hg' : Gap g')
    (ht : Starts t) (h : readValue margin fuel depth t = .ok (v, gap ++ '\x7d' :: r)) (hgap : Gap gap)
    (done : Entries Codes Value) : readMembers margin (fuel + 1) depth done (q ++ (g ++ ':' :: (g' ++ t))) =
      .ok (.object (Entries.assign name v done), r) := by
  have hend : skipGap (gap ++ '\x7d' :: r) = '\x7d' :: r := by
    rw [skipGap_append hgap]
    rfl
  rw [readMembers_member hq hg hg' ht, h]
  simp only [hend]

theorem readMembers_more {q gap gap' : Text} {name : Codes} {v : Value} (hq : Quoted q name) (hg : Gap g) (hg' : Gap g')
    (ht : Starts t) (h : readValue margin fuel depth t = .ok (v, gap ++ ',' :: (gap' ++ r))) (hgap : Gap gap)
    (hgap' : Gap gap') (hr : Starts r) (done : Entries Codes Value) :
    readMembers margin (fuel + 1) depth done (q ++ (g ++ ':' :: (g' ++ t))) =
      readMembers margin fuel depth (Entries.assign name v done) r := by
  have hcomma : skipGap (gap ++ ',' :: (gap' ++ r)) = ',' :: (gap' ++ r) := by
    rw [skipGap_append hgap]
    rfl
  have hbehind := hr.skipGap hgap'
  rw [readMembers_member hq hg hg' ht, h]
  simp only [hcomma, hbehind]

/-- A name is read as what it names; the name of a number takes a level. -/
theorem readValue_named {v : Value} (h : (p, v) ∈ named) (fuel depth : Nat) (r : Text) :
    readValue margin (fuel + 1) depth (p ++ r) = if depth = 0 ∧ isFloat v then .error .tooDeep else .ok (v, r) := by
  have hnames : ∀ e ∈ named, e.1 ≠ [] ∧ e.1.head?.all (fun c => c ≠ '\x22' ∧ c ≠ '[' ∧ c ≠ '\x7b') = true := by decide
  obtain ⟨hne, hhead⟩ := hnames _ h
  rw [Option.all_eq_true] at hhead
  rw [readValue_scalar, scalar, named?_named h]
  rw [List.head?_append_of_ne_nil _ hne]
  exact fun c hc => of_decide_eq_true (hhead c hc)

/-- Where a number starts a number is read. -/
theorem readValue_signed {w : Text} (hw : Whole w) (negative : Bool) (r : Text) (fuel depth : Nat) :
    readValue margin (fuel + 1) depth (signText negative ++ (w ++ r)) = scalar depth (signText negative ++ (w ++ r)) := by
  have hhead : ∀ c ∈ (signText negative ++ (w ++ r)).head?, c ≠ '\x22' ∧ c ≠ '[' ∧ c ≠ '\x7b' := by
    obtain ⟨c, t, rfl, hc⟩ := head_whole hw
    intro d hd
    cases negative with
    | true =>
      obtain rfl := Option.some.inj hd
      decide
    | false =>
      obtain rfl : c = d := Option.some.inj hd
      refine ⟨?_, ?_, ?_⟩
      all_goals
        rintro rfl
        exact absurd hc (by decide)
  exact readValue_scalar _ _ hhead

theorem readValue_overlong {n : Nat} (h : Overlong IntText.maxDigits p r n) (fuel depth : Nat) :
    readValue margin (fuel + 1) depth (p ++ r) = .error (.wholeNumber (.tooManyDigits n)) := by
  have hnumber := number?_overlong h
  obtain ⟨negative, hw, -, -⟩ := h
  rw [List.append_assoc] at hnumber ⊢
  rw [readValue_signed hw, scalar, named?_signed hw, hnumber]

end Parts

/-! ## What is written is read -/

/-- A bound of the reader, and no fault of the text. -/
inductive Stop.IsBound : Stop → Prop
  | depth : IsBound .tooDeep
  | digits (n : Nat) : IsBound (.wholeNumber (.tooManyDigits n))

/-- Of a text within bounds of its own: it comes to this, or to one of the reader's bounds
    if that is below the text's. -/
def Comes (digits D d : Nat) (x : Reading Value) (y : Value × Text) : Prop :=
  x = .ok y ∨ (d < D ∨ IntText.maxDigits < digits) ∧ ∃ stop : Stop, stop.IsBound ∧ x = .error stop

theorem Comes.deeper {digits D d : Nat} {x : Reading Value} {y : Value × Text} (h : Comes digits D d x y) :
    Comes digits (D + 1) (d + 1) x y := by
  rcases h with h | ⟨hbounds, hstop⟩
  · exact .inl h
  · exact .inr ⟨hbounds.imp_left Nat.succ_lt_succ, hstop⟩

def ValuesCome (margin digits fuel : Nat) : Prop := ∀ {D : Nat} (d : Nat) {p r : Text} {v : Value},
  Writes digits D p v → Follows r → 2 * p.length ≤ fuel →
    Comes digits D d (readValue margin fuel d (p ++ r)) (v, r)

def ItemsCome (margin digits fuel : Nat) : Prop := ∀ {D : Nat} (d : Nat) (done : List Value) {t : Text} (r : Text)
  {vs : List Value}, WritesItems digits D t vs → 2 * t.length + 1 ≤ fuel →
    Comes digits D d (readItems margin fuel d done (t ++ r)) (.list (done.reverse ++ vs), r)

def MembersCome (margin digits fuel : Nat) : Prop := ∀ {D : Nat} (d : Nat) (done : Entries Codes Value) {t : Text}
  (r : Text) {ms : List (Codes × Value)}, WritesMembers digits D t ms → 2 * t.length + 1 ≤ fuel →
    Comes digits D d (readMembers margin fuel d done (t ++ r)) (.object (Entries.assignAll done ms), r)

section Come

variable {digits fuel : Nat}

theorem number_comes {D d : Nat} {p r : Text} {v : Value} (h : Number digits p v) (hr : Follows r) :
    Comes digits D d (readValue margin (fuel + 1) d (p ++ r)) (v, r) := by
  have hnumber := number?_number h hr.ends
  obtain ⟨negative, w, u, hw, rfl⟩ := exists_signed h
  rw [List.append_assoc, List.append_assoc] at hnumber ⊢
  rw [readValue_signed hw, scalar, named?_signed hw]
  rcases hnumber with hok | ⟨hdigits, n, herror⟩
  · rw [hok]
    exact .inl rfl
  · rw [herror]
    exact .inr ⟨.inr hdigits, _, .digits n, rfl⟩

theorem value_step (hI : ItemsCome margin digits fuel) (hM : MembersCome margin digits fuel) :
    ValuesCome margin digits (fuel + 1) := by
  intro D d p r v h hr hfuel
  cases h with
  | named hmem hfloat =>
    rw [readValue_named hmem]
    split
    · rename_i hzero
      have hD := hfloat hzero.2
      exact .inr ⟨.inl (by omega), .tooDeep, .depth, rfl⟩
    · exact .inl rfl
  | number hn => exact number_comes hn hr
  | str hq =>
    obtain ⟨u, hu, hstring⟩ := stringAt_quoted hq margin d r
    rw [hu, readValue_quote, hstring]
    exact .inl rfl
  | @noItems D g hg =>
    cases d with
    | zero => exact .inr ⟨.inl (Nat.succ_pos D), .tooDeep, .depth, rfl⟩
    | succ d =>
      refine .inl ?_
      rw [List.cons_append, List.append_assoc]
      exact readValue_noItems hg
  | @items D g t vs hg ht =>
    cases d with
    | zero => exact .inr ⟨.inl (Nat.succ_pos D), .tooDeep, .depth, rfl⟩
    | succ d =>
      rw [List.cons_append, List.append_assoc, readValue_items hg ((starts_items ht).append r)]
      exact (hI d [] r ht (by simp at hfuel; omega)).deeper
  | @noMembers D g hg =>
    cases d with
    | zero => exact .inr ⟨.inl (Nat.succ_pos D), .tooDeep, .depth, rfl⟩
    | succ d =>
      refine .inl ?_
      rw [List.cons_append, List.append_assoc]
      exact readValue_noMembers hg
  | @members D g t ms hg ht =>
    cases d with
    | zero => exact .inr ⟨.inl (Nat.succ_pos D), .tooDeep, .depth, rfl⟩
    | succ d =>
      rw [List.cons_append, List.append_assoc, readValue_members hg ((starts_members ht).append r)]
      exact (hM d [] r ht (by simp at hfuel; omega)).deeper

theorem follows_cons {c : Char} (hc : c = ',' ∨ c = ']' ∨ c = '\x7d') (r : Text) : Follows (c :: r) := by
  intro d hd
  obtain rfl := Option.some.inj hd
  exact .inr hc

theorem items_step (hV : ValuesCome margin digits fuel) (hI : ItemsCome margin digits fuel) :
    ItemsCome margin digits (fuel + 1) := by
  intro D d done t r vs h hfuel
  cases h with
  | @last D p g v hp hg =>
    have hfollows : Follows (g ++ ']' :: r) := (follows_cons (by decide) r).gap hg
    have hcome := hV d hp hfollows (by simp at hfuel; omega)
    have hcut : p ++ (g ++ [']']) ++ r = p ++ (g ++ ']' :: r) := by simp
    rw [hcut]
    rcases hcome with hok | ⟨hbounds, stop, hstop, herror⟩
    · exact .inl (readItems_last hok hg done)
    · exact .inr ⟨hbounds, stop, hstop, readItems_error herror done⟩
  | @more D p g g' t v vs hp hg hg' ht =>
    have hfollows : Follows (g ++ ',' :: (g' ++ (t ++ r))) := (follows_cons (by decide) _).gap hg
    have hcome := hV d hp hfollows (by simp at hfuel; omega)
    have hcut : p ++ (g ++ ',' :: (g' ++ t)) ++ r = p ++ (g ++ ',' :: (g' ++ (t ++ r))) := by simp
    rw [hcut]
    rcases hcome with hok | ⟨hbounds, stop, hstop, herror⟩
    · rw [readItems_more hok hg hg' ((starts_items ht).append r)]
      have hrest := hI d (v :: done) r ht (by simp at hfuel; omega)
      rwa [List.reverse_cons, List.append_assoc] at hrest
    · exact .inr ⟨hbounds, stop, hstop, readItems_error herror done⟩

theorem members_step (hV : ValuesCome margin digits fuel) (hM : MembersCome margin digits fuel) :
    MembersCome margin digits (fuel + 1) := by
  intro D d done t r ms h hfuel
  cases h with
  | @last D _ gap m hm hgap =>
    obtain ⟨hq, hg, hg', hp⟩ := hm
    rename_i q g g' p name v
    have hfollows : Follows (gap ++ '\x7d' :: r) := (follows_cons (by decide) r).gap hgap
    have hcome := hV d hp hfollows (by simp at hfuel; omega)
    have hstarts := (starts_writes hp).append (gap ++ '\x7d' :: r)
    have hcut : q ++ (g ++ ':' :: (g' ++ p)) ++ (gap ++ ['\x7d']) ++ r =
        q ++ (g ++ ':' :: (g' ++ (p ++ (gap ++ '\x7d' :: r)))) := by simp
    rw [hcut]
    rcases hcome with hok | ⟨hbounds, stop, hstop, herror⟩
    · exact .inl (readMembers_last hq hg hg' hstarts hok hgap done)
    · exact .inr ⟨hbounds, stop, hstop, readMembers_error hq hg hg' hstarts herror done⟩
  | @more D _ gap gap' t m ms hm hgap hgap' ht =>
    obtain ⟨hq, hg, hg', hp⟩ := hm
    rename_i q g g' p name v
    have hfollows : Follows (gap ++ ',' :: (gap' ++ (t ++ r))) := (follows_cons (by decide) _).gap hgap
    have hcome := hV d hp hfollows (by simp at hfuel; omega)
    have hstarts := (starts_writes hp).append (gap ++ ',' :: (gap' ++ (t ++ r)))
    have hcut : q ++ (g ++ ':' :: (g' ++ p)) ++ (gap ++ ',' :: (gap' ++ t)) ++ r =
        q ++ (g ++ ':' :: (g' ++ (p ++ (gap ++ ',' :: (gap' ++ (t ++ r)))))) := by simp
    rw [hcut]
    rcases hcome with hok | ⟨hbounds, stop, hstop, herror⟩
    · rw [readMembers_more hq hg hg' hstarts hok hgap hgap' ((starts_members ht).append r)]
      exact hM d (Entries.assign name v done) r ht (by simp at hfuel; omega)
    · exact .inr ⟨hbounds, stop, hstop, readMembers_error hq hg hg' hstarts herror done⟩

theorem come (margin digits fuel : Nat) :
    ValuesCome margin digits fuel ∧ ItemsCome margin digits fuel ∧ MembersCome margin digits fuel := by
  induction fuel with
  | zero =>
    refine ⟨fun d p r v h _ hfuel => ?_, fun d done t r vs _ hfuel => ?_, fun d done t r ms _ hfuel => ?_⟩
    · have hpos := (starts_writes h).length_pos
      omega
    · omega
    · omega
  | succ fuel ih =>
    obtain ⟨hV, hI, hM⟩ := ih
    exact ⟨value_step hI hM, items_step hV hI, members_step hV hM⟩

end Come

/-! ## What a step can come to -/

section Cases

variable (fuel depth : Nat)

theorem head_cases (t : Text) : (∀ c ∈ t.head?, c ≠ '\x22' ∧ c ≠ '[' ∧ c ≠ '\x7b') ∨ (∃ r, t = '\x22' :: r) ∨
    (∃ r, t = '[' :: r) ∨ ∃ r, t = '\x7b' :: r := by
  cases t with
  | nil => exact .inl fun c hc => by cases hc
  | cons c r =>
    by_cases hquote : c = '\x22'
    · exact .inr (.inl ⟨r, by rw [hquote]⟩)
    by_cases hlist : c = '['
    · exact .inr (.inr (.inl ⟨r, by rw [hlist]⟩))
    by_cases hobject : c = '\x7b'
    · exact .inr (.inr (.inr ⟨r, by rw [hobject]⟩))
    · refine .inl fun d hd => ?_
      obtain rfl := Option.some.inj hd
      exact ⟨hquote, hlist, hobject⟩

theorem readValue_list_cases (t : Text) :
    (∃ g r, Gap g ∧ t = g ++ ']' :: r ∧ readValue margin (fuel + 1) (depth + 1) ('[' :: t) = .ok (.list [], r)) ∨
      ∃ g r, Gap g ∧ t = g ++ r ∧
        readValue margin (fuel + 1) (depth + 1) ('[' :: t) = readItems margin fuel depth [] r := by
  obtain ⟨g, hg, ht⟩ := exists_gap t
  rw [readValue_list]
  split
  · rename_i r hend
    exact .inl ⟨g, r, hg, hend ▸ ht, rfl⟩
  · exact .inr ⟨g, skipGap t, hg, ht, rfl⟩

theorem readValue_object_cases (t : Text) :
    (∃ g r, Gap g ∧ t = g ++ '\x7d' :: r ∧
        readValue margin (fuel + 1) (depth + 1) ('\x7b' :: t) = .ok (.object [], r)) ∨
      ∃ g r, Gap g ∧ t = g ++ r ∧
        readValue margin (fuel + 1) (depth + 1) ('\x7b' :: t) = readMembers margin fuel depth [] r := by
  obtain ⟨g, hg, ht⟩ := exists_gap t
  rw [readValue_object]
  split
  · rename_i r hend
    exact .inl ⟨g, r, hg, hend ▸ ht, rfl⟩
  · exact .inr ⟨g, skipGap t, hg, ht, rfl⟩

/-- An item stops the reading, or it is the last, or others follow, or it is followed by
    what cannot be there. -/
theorem readItems_cases (done : List Value) (t : Text) :
    (∃ stop, readValue margin fuel depth t = .error stop ∧ readItems margin (fuel + 1) depth done t = .error stop) ∨
    ∃ v g u, Gap g ∧ readValue margin fuel depth t = .ok (v, g ++ u) ∧
      ((∃ r, u = ']' :: r ∧ readItems margin (fuel + 1) depth done t = .ok (.list (done.reverse ++ [v]), r)) ∨
        (∃ g' r, Gap g' ∧ u = ',' :: (g' ++ r) ∧
          readItems margin (fuel + 1) depth done t = readItems margin fuel depth (v :: done) r) ∨
        readItems margin (fuel + 1) depth done t = .error (Stop.told margin depth (.at .comma u))) := by
  cases hv : readValue margin fuel depth t with
  | error stop => exact .inl ⟨stop, rfl, readItems_error hv done⟩
  | ok found =>
    obtain ⟨v, r⟩ := found
    obtain ⟨g, hg, hr⟩ := exists_gap r
    refine .inr ⟨v, g, skipGap r, hg, by rw [← hr], ?_⟩
    rw [readItems_ok _ _ _ hv]
    split
    · rename_i u hend
      exact .inl ⟨u, hend, by rw [List.reverse_cons]⟩
    · rename_i u hcomma
      obtain ⟨g', hg', hu⟩ := exists_gap u
      exact .inr (.inl ⟨g', skipGap u, hg', by rw [hcomma, ← hu], rfl⟩)
    · exact .inr (.inr rfl)

theorem stringAt_eq_ok {depth : Nat} {t r : Text} {s : Codes} (h : stringAt margin depth t = .ok (s, r)) :
    ∃ q, '\x22' :: t = q ++ r ∧ Quoted q s := by
  unfold stringAt at h
  cases hfrom : stringFrom ('\x22' :: t) [] 0 t with
  | error stop =>
    rw [hfrom] at h
    cases h
  | ok found =>
    rw [hfrom] at h
    obtain rfl := Except.ok.inj h
    obtain ⟨p, ns, hp, rfl, rfl⟩ := stringFrom_eq_ok hfrom
    exact ⟨'\x22' :: (p ++ ['\x22']), by simp, .mk hp⟩

theorem stringAt_eq_error {depth : Nat} {t : Text} {stop : Stop} (h : stringAt margin depth t = .error stop) :
    ∃ cause left, stop = Stop.told margin depth (.at cause left) := by
  unfold stringAt at h
  cases hfrom : stringFrom ('\x22' :: t) [] 0 t with
  | ok found =>
    rw [hfrom] at h
    cases h
  | error fault =>
    rw [hfrom] at h
    obtain ⟨cause, left, rfl⟩ := stringFrom_eq_error hfrom
    exact ⟨cause, left, (Except.error.inj h).symm⟩

/-- A member is none, or its value stops the reading, or it is the last, or others follow. -/
theorem readMembers_cases (done : Entries Codes Value) (t : Text) :
    (∃ cause left, readMembers margin (fuel + 1) depth done t = .error (Stop.told margin depth (.at cause left))) ∨
    ∃ q g g' u name, Quoted q name ∧ Gap g ∧ Gap g' ∧ t = q ++ (g ++ ':' :: (g' ++ u)) ∧
      ((∃ stop, readValue margin fuel depth u = .error stop ∧
          readMembers margin (fuel + 1) depth done t = .error stop) ∨
        ∃ v gap w, Gap gap ∧ readValue margin fuel depth u = .ok (v, gap ++ w) ∧
          ((∃ r, w = '\x7d' :: r ∧
              readMembers margin (fuel + 1) depth done t = .ok (.object (Entries.assign name v done), r)) ∨
            ∃ gap' r, Gap gap' ∧ w = ',' :: (gap' ++ r) ∧
              readMembers margin (fuel + 1) depth done t =
                readMembers margin fuel depth (Entries.assign name v done) r)) := by
  by_cases hquote : ∃ r, t = '\x22' :: r
  · obtain ⟨r, rfl⟩ := hquote
    rw [readMembers_quote]
    cases hstring : stringAt margin depth r with
    | error stop =>
      obtain ⟨cause, left, rfl⟩ := stringAt_eq_error hstring
      exact .inl ⟨cause, left, rfl⟩
    | ok found =>
      obtain ⟨name, r₁⟩ := found
      obtain ⟨q, hq, hname⟩ := stringAt_eq_ok hstring
      obtain ⟨g, hg, hr₁⟩ := exists_gap r₁
      dsimp only
      split
      · rename_i r₂ hcolon
        obtain ⟨g', hg', hr₂⟩ := exists_gap r₂
        have hcut : '\x22' :: r = q ++ (g ++ ':' :: (g' ++ skipGap r₂)) := by rw [hq, ← hr₂, ← hcolon, ← hr₁]
        cases hv : readValue margin fuel depth (skipGap r₂) with
        | error stop => exact .inr ⟨q, g, g', _, name, hname, hg, hg', hcut, .inl ⟨stop, hv, rfl⟩⟩
        | ok found =>
          obtain ⟨v, r₃⟩ := found
          obtain ⟨gap, hgap, hr₃⟩ := exists_gap r₃
          rw [hr₃] at hv
          dsimp only
          split
          · rename_i r₄ hend
            rw [hend] at hv
            exact .inr ⟨q, g, g', _, name, hname, hg, hg', hcut, .inr ⟨v, gap, _, hgap, hv, .inl ⟨r₄, rfl, rfl⟩⟩⟩
          · rename_i r₄ hcomma
            obtain ⟨gap', hgap', hr₄⟩ := exists_gap r₄
            rw [hcomma] at hv
            refine .inr ⟨q, g, g', _, name, hname, hg, hg', hcut, .inr ⟨v, gap, _, hgap, hv, .inr ⟨gap', _, hgap', ?_, rfl⟩⟩⟩
            rw [← hr₄]
          · exact .inl ⟨_, _, rfl⟩
      · exact .inl ⟨_, _, rfl⟩
  · refine .inl ⟨.memberName, t, ?_⟩
    rw [readMembers]
    intro r hr
    exact hquote ⟨r, hr⟩

end Cases

/-! ## What is read is written -/

def ValuesWritten (margin fuel : Nat) : Prop := ∀ {d : Nat} {t r : Text} {v : Value},
  readValue margin fuel d t = .ok (v, r) → ∃ p, t = p ++ r ∧ Writes IntText.maxDigits d p v

def ItemsWritten (margin fuel : Nat) : Prop := ∀ {d : Nat} {done : List Value} {t r : Text} {v : Value},
  readItems margin fuel d done t = .ok (v, r) →
    ∃ p vs, t = p ++ r ∧ WritesItems IntText.maxDigits d p vs ∧ v = .list (done.reverse ++ vs)

def MembersWritten (margin fuel : Nat) : Prop := ∀ {d : Nat} {done : Entries Codes Value} {t r : Text} {v : Value},
  readMembers margin fuel d done t = .ok (v, r) →
    ∃ p ms, t = p ++ r ∧ WritesMembers IntText.maxDigits d p ms ∧ v = .object (Entries.assignAll done ms)

section Written

variable {fuel : Nat}

theorem scalar_eq_ok {depth : Nat} {t r : Text} {v : Value} (h : scalar depth t = .ok (v, r)) :
    ∃ p, t = p ++ r ∧ Writes IntText.maxDigits depth p v := by
  unfold scalar at h
  split at h
  · rename_i hnamed
    obtain ⟨n, hmem, rfl⟩ := named?_eq_some hnamed
    split at h
    · cases h
    · rename_i hfloat
      obtain ⟨rfl, rfl⟩ := Prod.mk.inj (Except.ok.inj h)
      exact ⟨n, rfl, .named hmem fun hf hzero => hfloat ⟨hzero, hf⟩⟩
  · split at h
    · rename_i hnumber
      obtain ⟨rfl, rfl⟩ := Prod.mk.inj (Except.ok.inj h)
      rcases number?_eq_some hnumber with ⟨p, w, hv, rfl, hw⟩ | ⟨p, n, hv, -, -⟩
      · obtain rfl := Except.ok.inj hv
        exact ⟨p, rfl, .number hw⟩
      · cases hv
    · cases h
    · cases h

theorem value_written (hI : ItemsWritten margin fuel) (hM : MembersWritten margin fuel) :
    ValuesWritten margin (fuel + 1) := by
  intro d t r v h
  rcases head_cases t with hhead | ⟨u, rfl⟩ | ⟨u, rfl⟩ | ⟨u, rfl⟩
  · rw [readValue_scalar _ _ hhead] at h
    exact scalar_eq_ok h
  · rw [readValue_quote] at h
    cases hstring : stringAt margin d u with
    | error stop =>
      rw [hstring] at h
      cases h
    | ok found =>
      rw [hstring] at h
      obtain ⟨rfl, rfl⟩ := Prod.mk.inj (Except.ok.inj h)
      obtain ⟨q, hq, hs⟩ := stringAt_eq_ok hstring
      exact ⟨q, hq, .str hs⟩
  · cases d with
    | zero => cases h
    | succ d =>
      rcases readValue_list_cases fuel d u with ⟨g, r', hg, rfl, hread⟩ | ⟨g, t, hg, rfl, hread⟩
      · rw [hread] at h
        obtain ⟨rfl, rfl⟩ := Prod.mk.inj (Except.ok.inj h)
        exact ⟨'[' :: (g ++ [']']), by simp, .noItems hg⟩
      · rw [hread] at h
        obtain ⟨p, vs, rfl, hp, rfl⟩ := hI h
        exact ⟨'[' :: (g ++ p), by simp, .items hg hp⟩
  · cases d with
    | zero => cases h
    | succ d =>
      rcases readValue_object_cases fuel d u with ⟨g, r', hg, rfl, hread⟩ | ⟨g, t, hg, rfl, hread⟩
      · rw [hread] at h
        obtain ⟨rfl, rfl⟩ := Prod.mk.inj (Except.ok.inj h)
        exact ⟨'\x7b' :: (g ++ ['\x7d']), by simp, .noMembers hg⟩
      · rw [hread] at h
        obtain ⟨p, ms, rfl, hp, rfl⟩ := hM h
        exact ⟨'\x7b' :: (g ++ p), by simp, .members hg hp⟩

theorem items_written (hV : ValuesWritten margin fuel) (hI : ItemsWritten margin fuel) :
    ItemsWritten margin (fuel + 1) := by
  intro d done t r v h
  rcases readItems_cases fuel d done t with ⟨stop, -, hread⟩ | ⟨w, g, u, hg, hw, hread⟩
  · rw [hread] at h
    cases h
  obtain ⟨p, rfl, hp⟩ := hV hw
  rcases hread with ⟨r', rfl, hread⟩ | ⟨g', r', hg', rfl, hread⟩ | hread
  · rw [hread] at h
    obtain ⟨rfl, rfl⟩ := Prod.mk.inj (Except.ok.inj h)
    exact ⟨p ++ (g ++ [']']), [w], by simp, .last hp hg, rfl⟩
  · rw [hread] at h
    obtain ⟨q, vs, rfl, hq, rfl⟩ := hI h
    exact ⟨p ++ (g ++ ',' :: (g' ++ q)), w :: vs, by simp, .more hp hg hg' hq, by simp⟩
  · rw [hread] at h
    cases h

theorem members_written (hV : ValuesWritten margin fuel) (hM : MembersWritten margin fuel) :
    MembersWritten margin (fuel + 1) := by
  intro d done t r v h
  rcases readMembers_cases fuel d done t with ⟨cause, left, hread⟩ | ⟨q, g, g', u, name, hq, hg, hg', rfl, hread⟩
  · rw [hread] at h
    cases h
  rcases hread with ⟨stop, -, hread⟩ | ⟨w, gap, x, hgap, hw, hread⟩
  · rw [hread] at h
    cases h
  obtain ⟨p, rfl, hp⟩ := hV hw
  rcases hread with ⟨r', rfl, hread⟩ | ⟨gap', r', hgap', rfl, hread⟩
  · rw [hread] at h
    obtain ⟨rfl, rfl⟩ := Prod.mk.inj (Except.ok.inj h)
    exact ⟨_, [(name, w)], by simp, .last (.mk hq hg hg' hp) hgap, rfl⟩
  · rw [hread] at h
    obtain ⟨y, ms, rfl, hy, rfl⟩ := hM h
    exact ⟨_, (name, w) :: ms, by simp, .more (.mk hq hg hg' hp) hgap hgap' hy, rfl⟩

theorem written (fuel : Nat) : ValuesWritten margin fuel ∧ ItemsWritten margin fuel ∧ MembersWritten margin fuel := by
  induction fuel with
  | zero =>
    refine ⟨fun h => ?_, fun h => ?_, fun h => ?_⟩
    all_goals cases h
  | succ fuel ih =>
    obtain ⟨hV, hI, hM⟩ := ih
    exact ⟨value_written hI hM, items_written hV hI, members_written hV hM⟩

end Written

/-! ## Where a bound is come to -/

/-- What shows in a text for a bound that reading it comes to, if `In` tells where values
    are due in it. -/
inductive Stop.Shown (margin : Nat) (In : Nat → Text → Prop) (t : Text) : Stop → Prop
  | fault {cause : Cause} {left : Text} : Shown margin In t (.at cause left)
  | digits {e n : Nat} {c p r : Text} : In e c → t = c ++ (p ++ r) → Overlong IntText.maxDigits p r n →
      Shown margin In t (.wholeNumber (.tooManyDigits n))
  | depth {e : Nat} {c r : Text} : In e c → t = c ++ r → e ≤ margin → Shown margin In t .tooDeep

theorem Stop.Shown.behind {I J : Nat → Text → Prop} {t x : Text} {stop : Stop} (h : Shown margin I t stop)
    (hin : ∀ e c, I e c → J e (x ++ c)) : Shown margin J (x ++ t) stop := by
  cases h with
  | fault => exact .fault
  | digits hc ht hover => exact .digits (hin _ _ hc) (by rw [ht, List.append_assoc]) hover
  | depth hc ht he => exact .depth (hin _ _ hc) (by rw [ht, List.append_assoc]) he

/-- A fault near the depth is told as the depth. -/
theorem told_at (depth : Nat) (cause : Cause) (left : Text) :
    (∃ c l, Stop.told margin depth (.at cause left) = .at c l) ∨
      Stop.told margin depth (.at cause left) = .tooDeep ∧ depth < margin := by
  unfold Stop.told
  split
  · exact .inl ⟨_, _, rfl⟩
  · split
    · rename_i hdepth
      exact .inr ⟨rfl, hdepth⟩
    · exact .inl ⟨_, _, rfl⟩
  · exact .inl ⟨_, _, rfl⟩

theorem told_shown {In : Nat → Text → Prop} {depth : Nat} (hin : In depth []) (cause : Cause) (left t : Text) :
    (Stop.told margin depth (.at cause left)).Shown margin In t := by
  rcases told_at depth cause left with ⟨c, l, htold⟩ | ⟨htold, hdepth⟩
  · rw [htold]
    exact .fault
  · rw [htold]
    exact .depth hin rfl (Nat.le_of_lt hdepth)

def ValuesShown (margin fuel : Nat) : Prop := ∀ {d : Nat} {t : Text} {stop : Stop},
  readValue margin fuel d t = .error stop → stop.Shown margin (InValue IntText.maxDigits d) t

def ItemsShown (margin fuel : Nat) : Prop := ∀ {d : Nat} {done : List Value} {t : Text} {stop : Stop},
  readItems margin fuel d done t = .error stop → stop.Shown margin (InItems IntText.maxDigits d) t

def MembersShown (margin fuel : Nat) : Prop := ∀ {d : Nat} {done : Entries Codes Value} {t : Text} {stop : Stop},
  readMembers margin fuel d done t = .error stop →
    stop.Shown margin (InMembers IntText.maxDigits d) t ∨ stop = .tooDeep ∧ d < margin

section Shown

variable {fuel : Nat}

theorem shown_here {d : Nat} (t : Text) (hd : d ≤ margin) :
    Stop.Shown margin (InValue IntText.maxDigits d) t .tooDeep :=
  .depth .here rfl hd

theorem scalar_shown {d : Nat} {t : Text} {stop : Stop} (h : scalar d t = .error stop) :
    stop.Shown margin (InValue IntText.maxDigits d) t := by
  unfold scalar at h
  split at h
  · split at h
    · rename_i hzero
      obtain rfl := Except.error.inj h
      exact shown_here t (by rw [hzero.1]; exact Nat.zero_le _)
    · cases h
  · split at h
    · cases h
    · rename_i f r hnumber
      obtain rfl := Except.error.inj h
      rcases number?_eq_some hnumber with ⟨p, v, hv, -, -⟩ | ⟨p, n, hn, rfl, hover⟩
      · cases hv
      · obtain rfl := Except.error.inj hn
        exact .digits .here rfl hover
    · obtain rfl := Except.error.inj h
      exact .fault

theorem value_shown (hI : ItemsShown margin fuel) (hM : MembersShown margin fuel) : ValuesShown margin (fuel + 1) := by
  intro d t stop h
  rcases head_cases t with hhead | ⟨u, rfl⟩ | ⟨u, rfl⟩ | ⟨u, rfl⟩
  · rw [readValue_scalar _ _ hhead] at h
    exact scalar_shown h
  · rw [readValue_quote] at h
    cases hstring : stringAt margin d u with
    | ok found =>
      rw [hstring] at h
      cases h
    | error fault =>
      rw [hstring] at h
      obtain rfl := Except.error.inj h
      obtain ⟨cause, left, rfl⟩ := stringAt_eq_error hstring
      exact told_shown .here cause left _
  · cases d with
    | zero =>
      obtain rfl := Except.error.inj h
      exact shown_here _ (Nat.zero_le _)
    | succ d =>
      rcases readValue_list_cases fuel d u with ⟨g, r, hg, rfl, hread⟩ | ⟨g, r, hg, rfl, hread⟩
      · rw [hread] at h
        cases h
      · rw [hread] at h
        exact (hI h).behind (x := '[' :: g) fun e c hc => .items hg hc
  · cases d with
    | zero =>
      obtain rfl := Except.error.inj h
      exact shown_here _ (Nat.zero_le _)
    | succ d =>
      rcases readValue_object_cases fuel d u with ⟨g, r, hg, rfl, hread⟩ | ⟨g, r, hg, rfl, hread⟩
      · rw [hread] at h
        cases h
      · rw [hread] at h
        rcases hM h with hshown | ⟨rfl, hd⟩
        · exact hshown.behind (x := '\x7b' :: g) fun e c hc => .members hg hc
        · exact shown_here _ hd

theorem items_shown (hV : ValuesShown margin fuel) (hI : ItemsShown margin fuel) : ItemsShown margin (fuel + 1) := by
  intro d done t stop h
  rcases readItems_cases fuel d done t with ⟨fault, hv, hread⟩ | ⟨v, g, u, hg, hv, hread⟩
  · rw [hread] at h
    obtain rfl := Except.error.inj h
    exact (hV hv).behind (x := []) fun e c hc => .here hc
  obtain ⟨p, rfl, hp⟩ := (written fuel).1 hv
  rcases hread with ⟨r, rfl, hread⟩ | ⟨g', r, hg', rfl, hread⟩ | hread
  · rw [hread] at h
    cases h
  · rw [hread] at h
    have hshown := (hI h).behind (x := p ++ (g ++ ',' :: g')) (J := InItems IntText.maxDigits d) fun e c hc => by
      have hmore := InItems.more hp hg hg' hc
      simpa using hmore
    simpa using hshown
  · rw [hread] at h
    obtain rfl := Except.error.inj h
    exact told_shown (.here .here) _ _ _

theorem members_shown (hV : ValuesShown margin fuel) (hM : MembersShown margin fuel) :
    MembersShown margin (fuel + 1) := by
  intro d done t stop h
  rcases readMembers_cases fuel d done t with ⟨cause, left, hread⟩ | ⟨q, g, g', u, name, hq, hg, hg', rfl, hread⟩
  · rw [hread] at h
    obtain rfl := Except.error.inj h
    rcases told_at d cause left with ⟨c, l, htold⟩ | htold
    · rw [htold]
      exact .inl .fault
    · exact .inr htold
  rcases hread with ⟨fault, hv, hread⟩ | ⟨w, gap, x, hgap, hw, hread⟩
  · rw [hread] at h
    obtain rfl := Except.error.inj h
    refine .inl ?_
    have hshown := (hV hv).behind (x := q ++ (g ++ ':' :: g')) (J := InMembers IntText.maxDigits d) fun e c hc => by
      have hhere := InMembers.here hq hg hg' hc
      simpa using hhere
    simpa using hshown
  obtain ⟨p, rfl, hp⟩ := (written fuel).1 hw
  rcases hread with ⟨r, rfl, hread⟩ | ⟨gap', r, hgap', rfl, hread⟩
  · rw [hread] at h
    cases h
  · rw [hread] at h
    refine (hM h).imp_left fun hshown => ?_
    have hbehind := hshown.behind (x := q ++ (g ++ ':' :: (g' ++ p)) ++ (gap ++ ',' :: gap'))
      (J := InMembers IntText.maxDigits d) fun e c hc => by
        have hmore := InMembers.more (.mk hq hg hg' hp) hgap hgap' hc
        simpa using hmore
    simpa using hbehind

theorem shown (fuel : Nat) : ValuesShown margin fuel ∧ ItemsShown margin fuel ∧ MembersShown margin fuel := by
  induction fuel with
  | zero =>
    refine ⟨fun h => ?_, fun h => ?_, fun h => ?_⟩
    · obtain rfl := Except.error.inj h
      exact .fault
    · obtain rfl := Except.error.inj h
      exact .fault
    · obtain rfl := Except.error.inj h
      exact .inl .fault
  | succ fuel ih =>
    obtain ⟨hV, hI, hM⟩ := ih
    exact ⟨value_shown hI hM, items_shown hV hI, members_shown hV hM⟩

end Shown

/-! ## From there on -/

section Reach

variable {u : Text} {stop : Stop} {e : Nat}

def ValuesReach (margin : Nat) (u : Text) (e : Nat) (stop : Stop) (fuel : Nat) : Prop := ∀ {d : Nat} {c : Text},
  InValue IntText.maxDigits d e c → 2 * c.length + 2 ≤ fuel → readValue margin fuel d (c ++ u) = .error stop

def ItemsReach (margin : Nat) (u : Text) (e : Nat) (stop : Stop) (fuel : Nat) : Prop := ∀ {d : Nat}
  {done : List Value} {c : Text}, InItems IntText.maxDigits d e c → 2 * c.length + 3 ≤ fuel →
    readItems margin fuel d done (c ++ u) = .error stop

def MembersReach (margin : Nat) (u : Text) (e : Nat) (stop : Stop) (fuel : Nat) : Prop := ∀ {d : Nat}
  {done : Entries Codes Value} {c : Text}, InMembers IntText.maxDigits d e c → 2 * c.length + 3 ≤ fuel →
    readMembers margin fuel d done (c ++ u) = .error stop

/-- What is within the bounds of the reader is read. -/
theorem readValue_writes (fuel : Nat) {d : Nat} {p r : Text} {v : Value} (hp : Writes IntText.maxDigits d p v)
    (hr : Follows r) (hfuel : 2 * p.length ≤ fuel) : readValue margin fuel d (p ++ r) = .ok (v, r) := by
  rcases (come margin _ fuel).1 d hp hr hfuel with hok | ⟨hbounds, -⟩
  · exact hok
  · omega

theorem starts_inValue {d : Nat} {c : Text} (h : InValue IntText.maxDigits d e c) (hu : Starts u) : Starts (c ++ u) := by
  cases h with
  | here => exact hu
  | items _ _ | members _ _ => exact ⟨_, _, rfl, by decide⟩

theorem starts_inItems {d : Nat} {c : Text} (h : InItems IntText.maxDigits d e c) (hu : Starts u) : Starts (c ++ u) := by
  cases h with
  | here hc => exact starts_inValue hc hu
  | more hp _ _ _ => exact ((starts_writes hp).append _).append u

theorem starts_inMembers {d : Nat} {c : Text} (h : InMembers IntText.maxDigits d e c) : Starts (c ++ u) := by
  cases h with
  | here hq _ _ _ => exact ((starts_quoted hq).append _).append u
  | more hm _ _ _ => exact ((starts_member hm).append _).append u

variable {fuel : Nat}

theorem value_reach (hu : Starts u) (hstop : ∀ fuel, readValue margin (fuel + 1) e u = .error stop)
    (hI : ItemsReach margin u e stop fuel) (hM : MembersReach margin u e stop fuel) :
    ValuesReach margin u e stop (fuel + 1) := by
  intro d c h hfuel
  cases h with
  | here => exact hstop fuel
  | items hg hc =>
    rw [List.cons_append, List.append_assoc, readValue_items hg (starts_inItems hc hu)]
    exact hI hc (by simp at hfuel; omega)
  | members hg hc =>
    rw [List.cons_append, List.append_assoc, readValue_members hg (starts_inMembers hc)]
    exact hM hc (by simp at hfuel; omega)

theorem items_reach (hu : Starts u) (hV : ValuesReach margin u e stop fuel) (hI : ItemsReach margin u e stop fuel) :
    ItemsReach margin u e stop (fuel + 1) := by
  intro d done c h hfuel
  cases h with
  | here hc => exact readItems_error (hV hc (by omega)) done
  | @more _ _ p g g' c v hp hg hg' hc =>
    have hfollows : Follows (g ++ ',' :: (g' ++ (c ++ u))) := (follows_cons (by decide) _).gap hg
    have hok : readValue margin fuel d _ = _ := readValue_writes fuel hp hfollows (by simp at hfuel; omega)
    have hcut : p ++ (g ++ ',' :: (g' ++ c)) ++ u = p ++ (g ++ ',' :: (g' ++ (c ++ u))) := by simp
    rw [hcut, readItems_more hok hg hg' (starts_inItems hc hu)]
    exact hI hc (by simp at hfuel; omega)

theorem members_reach (hu : Starts u) (hV : ValuesReach margin u e stop fuel) (hM : MembersReach margin u e stop fuel) :
    MembersReach margin u e stop (fuel + 1) := by
  intro d done c h hfuel
  cases h with
  | @here _ _ q g g' c name hq hg hg' hc =>
    have hcut : q ++ (g ++ ':' :: (g' ++ c)) ++ u = q ++ (g ++ ':' :: (g' ++ (c ++ u))) := by simp
    rw [hcut]
    exact readMembers_error hq hg hg' (starts_inValue hc hu) (hV hc (by simp at hfuel; omega)) done
  | @more _ _ _ gap gap' c m hm hgap hgap' hc =>
    obtain ⟨hq, hg, hg', hp⟩ := hm
    rename_i q g g' p name v
    have hfollows : Follows (gap ++ ',' :: (gap' ++ (c ++ u))) := (follows_cons (by decide) _).gap hgap
    have hok : readValue margin fuel d _ = _ := readValue_writes fuel hp hfollows (by simp at hfuel; omega)
    have hcut : q ++ (g ++ ':' :: (g' ++ p)) ++ (gap ++ ',' :: (gap' ++ c)) ++ u =
        q ++ (g ++ ':' :: (g' ++ (p ++ (gap ++ ',' :: (gap' ++ (c ++ u)))))) := by simp
    rw [hcut, readMembers_more hq hg hg' ((starts_writes hp).append _) hok hgap hgap' (starts_inMembers hc)]
    exact hM hc (by simp at hfuel; omega)

theorem reach (hu : Starts u) (hstop : ∀ fuel, readValue margin (fuel + 1) e u = .error stop) (fuel : Nat) :
    ValuesReach margin u e stop fuel ∧ ItemsReach margin u e stop fuel ∧ MembersReach margin u e stop fuel := by
  induction fuel with
  | zero => exact ⟨fun _ hfuel => by omega, fun _ hfuel => by omega, fun _ hfuel => by omega⟩
  | succ fuel ih =>
    obtain ⟨hV, hI, hM⟩ := ih
    exact ⟨value_reach hu hstop hI hM, items_reach hu hV hI, members_reach hu hV hM⟩

end Reach

/-! ## Whole texts -/

section Whole

variable {bounds : Bounds} {t : Text} {v : Value}

theorem startsWith_mark {g u : Text} (hg : Gap g) (hu : Starts u) : Text.startsWith ['\ufeff'] (g ++ u) = false := by
  have hhead : ∀ c ∈ (g ++ u).head?, c ≠ '\ufeff' := by
    intro c hc
    cases g with
    | nil =>
      obtain ⟨d, r, rfl, -, -, -, hmark⟩ := hu
      rwa [← Option.some.inj hc]
    | cons d g =>
      obtain rfl : d = c := Option.some.inj hc
      rintro rfl
      exact absurd (hg _ List.mem_cons_self) (by decide)
  rw [← Bool.not_eq_true, Text.startsWith_iff]
  rintro ⟨r, hr⟩
  rw [← hr] at hhead
  exact hhead _ rfl rfl

theorem follows_of_gap {g : Text} (hg : Gap g) : Follows g :=
  fun c hc => .inl (hg c (List.mem_of_mem_head? hc))

theorem skipGap_gap {g : Text} (hg : Gap g) : skipGap g = [] := by
  have hnil := skipGap_append hg []
  rwa [List.append_nil] at hnil

theorem readWhole_ok {g u g' : Text} (hg : Gap g) (hu : Starts u) (hg' : Gap g')
    (h : readValue bounds.margin (2 * (g ++ u).length + 2) bounds.depth u = .ok (v, g')) :
    readWhole bounds (g ++ u) = .ok v := by
  rw [readWhole, startsWith_mark hg hu, if_neg Bool.false_ne_true, hu.skipGap hg, h]
  dsimp only
  rw [skipGap_gap hg']
  rfl

theorem readWhole_error {g u : Text} {stop : Stop} (hg : Gap g) (hu : Starts u)
    (h : readValue bounds.margin (2 * (g ++ u).length + 2) bounds.depth u = .error stop) :
    readWhole bounds (g ++ u) = .error stop := by
  rw [readWhole, startsWith_mark hg hu, if_neg Bool.false_ne_true, hu.skipGap hg, h]

theorem readWhole_come {digits D : Nat} (h : Json digits D t v) (bounds : Bounds) :
    readWhole bounds t = .ok v ∨ (bounds.depth < D ∨ IntText.maxDigits < digits) ∧
      ∃ stop : Stop, stop.IsBound ∧ readWhole bounds t = .error stop := by
  obtain ⟨hg, hp, hg'⟩ := h
  rename_i g p g'
  have hcome := (come bounds.margin digits (2 * (g ++ (p ++ g')).length + 2)).1 bounds.depth hp (follows_of_gap hg')
    (by simp; omega)
  have hstarts := (starts_writes hp).append g'
  rcases hcome with hok | ⟨hbounds, stop, hstop, herror⟩
  · exact .inl (readWhole_ok hg hstarts hg' hok)
  · exact .inr ⟨hbounds, stop, hstop, readWhole_error hg hstarts herror⟩

theorem readWhole_eq_ok : readWhole bounds t = .ok v ↔ Json IntText.maxDigits bounds.depth t v := by
  constructor
  · intro h
    unfold readWhole at h
    split at h
    · cases h
    · split at h
      · cases h
      · rename_i r hread
        split at h
        · rename_i hempty
          obtain rfl := Except.ok.inj h
          obtain ⟨g, hg, ht⟩ := exists_gap t
          obtain ⟨g', hg', hr⟩ := exists_gap r
          rw [List.isEmpty_iff.1 hempty, List.append_nil] at hr
          subst hr
          obtain ⟨p, hcut, hp⟩ := (written _).1 hread
          rw [ht, hcut]
          exact .mk hg hp hg'
        · cases h
  · intro h
    rcases readWhole_come h bounds with hok | ⟨hbounds, -⟩
    · exact hok
    · omega

theorem readWhole_shown {stop : Stop} (h : readWhole bounds t = .error stop) :
    stop.Shown bounds.margin
      (fun e c => ∃ g c', Gap g ∧ InValue IntText.maxDigits bounds.depth e c' ∧ c = g ++ c') t := by
  unfold readWhole at h
  split at h
  · obtain rfl := Except.error.inj h
    exact .fault
  · obtain ⟨g, hg, ht⟩ := exists_gap t
    split at h
    · rename_i hread
      obtain rfl := Except.error.inj h
      rw [ht]
      exact ((shown _).1 hread).behind fun e c hc => ⟨g, c, hg, hc, rfl⟩
    · split at h
      · cases h
      · obtain rfl := Except.error.inj h
        exact .fault

theorem readWhole_due {e : Nat} {u : Text} {stop : Stop} (h : Due IntText.maxDigits bounds.depth e t u) (hu : Starts u)
    (hstop : ∀ fuel, readValue bounds.margin (fuel + 1) e u = .error stop) : readWhole bounds t = .error stop := by
  obtain ⟨hg, hc⟩ := h
  exact readWhole_error hg (starts_inValue hc hu) ((reach hu hstop _).1 hc (by simp; omega))

/-- A value is read if and only if the text writes it, with no number of too many digits
    and nothing nested too deeply. -/
theorem read_eq_ok : read bounds t = .ok v ↔ Json IntText.maxDigits bounds.depth t v := by
  rw [← readWhole_eq_ok]
  unfold read
  cases readWhole bounds t with
  | ok w => simp
  | error stop => cases stop <;> simp

theorem read_beyond {digits depth : Nat} (h : Json digits depth t v) :
    read bounds t = .ok v ∨ read bounds t = .error .tooDeep ∨
      ∃ n, read bounds t = .error (.wholeNumber (.tooManyDigits n)) := by
  unfold read
  rcases readWhole_come h bounds with hok | ⟨-, stop, hstop, herror⟩
  · rw [hok]
    exact .inl rfl
  · rw [herror]
    cases hstop with
    | depth => exact .inr (.inl rfl)
    | digits n => exact .inr (.inr ⟨n, rfl⟩)

theorem readWhole_wholeNumber {f : IntText.Fault} :
    read bounds t = .error (.wholeNumber f) ↔ readWhole bounds t = .error (.wholeNumber f) := by
  unfold read
  cases readWhole bounds t with
  | ok w => simp
  | error stop => cases stop <;> simp

theorem readWhole_tooDeep : read bounds t = .error .tooDeep ↔ readWhole bounds t = .error .tooDeep := by
  unfold read
  cases readWhole bounds t with
  | ok w => simp
  | error stop => cases stop <;> simp

theorem starts_overlong {p r : Text} {n : Nat} (h : Overlong IntText.maxDigits p r n) : Starts (p ++ r) := by
  obtain ⟨negative, hw, -, -⟩ := h
  rw [List.append_assoc]
  exact starts_signed hw negative _

theorem read_wholeNumber {f : IntText.Fault} : read bounds t = .error (.wholeNumber f) ↔
    ∃ e p r n, Due IntText.maxDigits bounds.depth e t (p ++ r) ∧ Overlong IntText.maxDigits p r n ∧
      f = .tooManyDigits n := by
  rw [readWhole_wholeNumber]
  constructor
  · intro h
    have hshown := readWhole_shown h
    cases hshown with
    | @digits e n c p r hc ht hover =>
      obtain ⟨g, c, hg, hc, rfl⟩ := hc
      rw [List.append_assoc] at ht
      exact ⟨e, p, r, n, ht ▸ .mk hg hc, hover, rfl⟩
  · rintro ⟨e, p, r, n, hdue, hover, rfl⟩
    exact readWhole_due hdue (starts_overlong hover) fun fuel => readValue_overlong hover fuel e

/-- The depth is come to only where a value is due that could hardly be nested deeper. -/
theorem due_of_read (h : read bounds t = .error .tooDeep) :
    ∃ e r, Due IntText.maxDigits bounds.depth e t r ∧ e ≤ bounds.margin := by
  have hshown := readWhole_shown (readWhole_tooDeep.1 h)
  cases hshown with
  | @depth e c r hc ht he =>
    obtain ⟨g, c, hg, hc, rfl⟩ := hc
    rw [List.append_assoc] at ht
    exact ⟨e, r, ht ▸ .mk hg hc, he⟩

theorem read_tooDeep {b : Char} {r : Text} (h : Due IntText.maxDigits bounds.depth 0 t (b :: r))
    (hb : b = '[' ∨ b = '\x7b') : read bounds t = .error .tooDeep := by
  rw [readWhole_tooDeep]
  rcases hb with rfl | rfl
  · exact readWhole_due h ⟨_, _, rfl, by decide⟩ fun _ => rfl
  · exact readWhole_due h ⟨_, _, rfl, by decide⟩ fun _ => rfl

end Whole

end Accessors.Value
