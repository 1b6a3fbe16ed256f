/-
  Accessors.Proofs.Editor.Repeats — which accessors a command generates more than once.

  Every cursor has the accessors of the declaration nearest to it rendered, and nothing is
  left out because it was rendered before. So a declaration is rendered once for each
  cursor that it is nearest to (`count_declarations`). Two cursors have none in common if a
  declaration separates them, or if the upper one has none at or above it (`Apart`,
  `apart_iff`).
  - `collect_nodup_iff`: the declarations that are rendered are distinct, and the text
    defines no method of one of them twice, if and only if any two cursors are apart;
  - `collect_repeats`: with a cursor on a declaration and one below it, it is twice there.
-/
import Accessors.Proofs.Editor.Selections
import Accessors.Proofs.Render.Methods
import Mathlib.Data.List.Nodup

namespace Accessors.Command

open Property (Found clamped declaredOn?)

/-- The declarations whose accessors are rendered, in the order of the text. -/
def declarations (d : Document) : List Found := d.ordered.filterMap (Property.find? d.lines)

/-- The methods that are rendered, each with the line of its declaration. -/
def definitions (d : Document) (kind : AccessorKind) : List (Nat × Text) :=
  (declarations d).flatMap fun f => (Render.methodNames f.property.name kind).map (Prod.mk f.line)

/-- No declaration is nearest to both cursors: the upper one has none at or above it, or
    one stands below that and not below the other. -/
def Apart (lines : List Text) (a b : Int) : Prop :=
  (∀ i : Nat, (i : Int) ≤ min (clamped lines a) (clamped lines b) → declaredOn? lines i = none) ∨
    ∃ i : Nat, min (clamped lines a) (clamped lines b) < i ∧ (i : Int) ≤ max (clamped lines a) (clamped lines b) ∧
      (declaredOn? lines i).isSome

/-! ## Two cursors -/

section Cursors

variable {lines : List Text} {a b : Int} {f g : Found}

theorem Apart.symm (h : Apart lines a b) : Apart lines b a := by
  unfold Apart at h ⊢
  rwa [Int.min_comm, Int.max_comm]

/-- A line has one declaration. -/
theorem eq_of_line_eq (hf : Property.find? lines a = some f) (hg : Property.find? lines b = some g)
    (h : f.line = g.line) : f = g := by
  have hdeclares := (Property.find?_eq_some.1 hf).declares
  rw [h, (Property.find?_eq_some.1 hg).declares] at hdeclares
  cases f
  cases g
  rw [Found.mk.injEq]
  exact ⟨h, (Option.some.inj hdeclares).symm⟩

theorem apart_iff_of_le (h : clamped lines a ≤ clamped lines b) :
    Apart lines a b ↔ ∀ f, Property.find? lines a = some f → Property.find? lines b ≠ some f := by
  unfold Apart
  rw [Int.min_eq_left h, Int.max_eq_right h]
  constructor
  · rintro (hnone | ⟨i, hai, hib, hi⟩) f hf hg
    · rw [Property.find?_eq_none.2 hnone] at hf
      cases hf
    · have hreached := (Property.find?_eq_some.1 hf).reached
      have hbetween := (Property.find?_eq_some.1 hg).nearest i (by omega) hib
      rw [hbetween] at hi
      cases hi
  · intro hdiffer
    by_contra hnot
    rw [not_or] at hnot
    obtain ⟨hsome, hbetween⟩ := hnot
    have hfound : Property.find? lines a ≠ none := fun hnone => hsome (Property.find?_eq_none.1 hnone)
    obtain ⟨f, hf⟩ := Option.ne_none_iff_exists'.1 hfound
    -- Nothing between the cursors is a declaration, so that the same one is nearest to both.
    have hnearest := Property.find?_eq_some.1 hf
    refine hdiffer f hf (Property.find?_eq_some.2 ⟨Int.le_trans hnearest.reached h, hnearest.declares, ?_⟩)
    intro i hi hib
    by_cases hia : (i : Int) ≤ clamped lines a
    · exact hnearest.nearest i hi hia
    · rw [← Option.not_isSome_iff_eq_none]
      exact fun hdeclared => hbetween ⟨i, by omega, hib, hdeclared⟩

theorem apart_iff :
    Apart lines a b ↔ ∀ f, Property.find? lines a = some f → Property.find? lines b ≠ some f := by
  rcases Int.le_total (clamped lines a) (clamped lines b) with h | h
  · exact apart_iff_of_le h
  · have hsymm : Apart lines a b ↔ Apart lines b a := ⟨Apart.symm, Apart.symm⟩
    rw [hsymm, apart_iff_of_le h]
    exact forall_congr' fun f => ⟨fun hb ha hc => hb hc ha, fun hb ha hc => hb hc ha⟩

end Cursors

/-! ## All cursors -/

variable {s : Settings} {d : Document} {kind : AccessorKind}

theorem count_declarations (d : Document) (f : Found) :
    (declarations d).count f = d.selections.countP fun c => Property.find? d.lines c = some f := by
  unfold declarations
  rw [List.count_filterMap, d.perm_ordered.countP_eq]
  simp only [beq_eq_decide]

theorem exists_cursor {f : Found} (h : f ∈ declarations d) : ∃ c, Property.find? d.lines c = some f := by
  obtain ⟨c, -, hc⟩ := List.mem_filterMap.1 h
  exact ⟨c, hc⟩

theorem pairwise_ordered_iff {R : Int → Int → Prop} (hR : ∀ {a b}, R a b → R b a) :
    d.ordered.Pairwise R ↔ d.selections.Pairwise R := d.perm_ordered.pairwise_iff hR

/-- The declarations are on lines of their own if no two cursors share one. -/
theorem pairwise_line_iff :
    ((declarations d).Pairwise fun f g => f.line ≠ g.line) ↔ d.selections.Pairwise (Apart d.lines) := by
  rw [← pairwise_ordered_iff Apart.symm, declarations, List.pairwise_filterMap]
  refine Iff.of_eq (congrArg (List.Pairwise · d.ordered) ?_)
  ext a b
  rw [apart_iff]
  constructor
  · intro h f hf hg
    exact h f hf f hg rfl
  · intro h f hf g hg hline
    rw [eq_of_line_eq hf hg hline] at hf
    exact h g hf hg

theorem nodup_lines_iff :
    ((declarations d).map Found.line).Nodup ↔ d.selections.Pairwise (Apart d.lines) := by
  rw [List.Nodup, List.pairwise_map]
  exact pairwise_line_iff

theorem nodup_methodNames (n : Name) (kind : AccessorKind) : (Render.methodNames n kind).Nodup := by
  cases kind with
  | getter => exact List.nodup_singleton _
  | setter => exact List.nodup_singleton _
  | both =>
    have hne : n.method "get".toList ≠ n.method "set".toList := by
      intro he
      exact absurd (List.cons.inj he).1 (by decide)
    show [n.method "get".toList, n.method "set".toList].Nodup
    rw [List.nodup_cons, List.mem_singleton]
    exact ⟨hne, List.nodup_singleton _⟩

theorem nodup_definitions_iff :
    (definitions d kind).Nodup ↔ d.selections.Pairwise (Apart d.lines) := by
  rw [definitions, List.nodup_flatMap, ← pairwise_line_iff]
  constructor
  · rintro ⟨-, hdisjoint⟩
    refine hdisjoint.imp_of_mem fun {f g} hf hg hfg hline => ?_
    obtain ⟨a, ha⟩ := exists_cursor hf
    obtain ⟨b, hb⟩ := exists_cursor hg
    obtain rfl := eq_of_line_eq ha hb hline
    obtain ⟨m, hm⟩ : ∃ m, m ∈ Render.methodNames f.property.name kind := by
      cases kind <;> exact ⟨_, List.mem_cons_self⟩
    exact hfg (List.mem_map_of_mem hm) (List.mem_map_of_mem hm)
  · intro h
    refine ⟨fun f _ => (nodup_methodNames _ kind).map fun _ _ he => (Prod.mk.inj he).2,
      h.imp fun hne x hf hg => ?_⟩
    obtain ⟨m, -, rfl⟩ := List.mem_map.1 hf
    obtain ⟨n, -, he⟩ := List.mem_map.1 hg
    exact hne (Prod.mk.inj he).1.symm

theorem methods_flatMap {fs : List Found} (h : ∀ f ∈ fs, f.property.Unbroken) :
    Render.methods (fs.flatMap fun f => Render.text s f.property kind) =
      fs.flatMap fun f => Render.methodNames f.property.name kind := by
  induction fs with
  | nil => rfl
  | cons f fs ih =>
    obtain ⟨hf, hfs⟩ := List.forall_mem_cons.1 h
    obtain ⟨T, hT⟩ := generated_text s hf kind
    rw [List.flatMap_cons, List.flatMap_cons, Render.methods_append hT, Render.methods_text s hf, ih hfs]

theorem snd_definitions : (definitions d kind).map Prod.snd =
    (declarations d).flatMap fun f => Render.methodNames f.property.name kind := by
  unfold definitions
  rw [List.map_flatMap]
  refine List.flatMap_congr fun f _ => ?_
  rw [List.map_map]
  exact List.map_id _

theorem outcome_collect (hs : Render.Spaceable s kind) (d : Document) : (collect s d kind).outcome =
    .ok ((declarations d).flatMap fun f => Render.text s f.property kind) := by
  unfold collect
  rw [outcome_renderAll hs, flatMap_renderedAt]
  rfl

theorem methods_collected (hlines : ∀ l ∈ d.lines, Text.Unbroken l) :
    Render.methods ((declarations d).flatMap fun f => Render.text s f.property kind) =
      (definitions d kind).map Prod.snd := by
  rw [snd_definitions]
  refine methods_flatMap fun f hf => ?_
  obtain ⟨c, hc⟩ := exists_cursor hf
  exact Property.unbroken_of_find? hlines hc

/-- What is collected for the cursors of a document are the accessors of declarations, of
    each as often as there are cursors that it is nearest to; they define the methods that
    go by its name. The declarations are on distinct lines if and only if any two cursors
    are apart, and then alone no method of a declaration is defined twice. -/
theorem collect_nodup_iff (hs : Render.Spaceable s kind) :
    (collect s d kind).outcome = .ok ((declarations d).flatMap fun f => Render.text s f.property kind) ∧
    (∀ f, (declarations d).count f = d.selections.countP fun c => Property.find? d.lines c = some f) ∧
    ((∀ l ∈ d.lines, Text.Unbroken l) → ∀ text, (collect s d kind).outcome = .ok text →
      Render.methods text = (definitions d kind).map Prod.snd) ∧
    (((declarations d).map Found.line).Nodup ↔ d.selections.Pairwise (Apart d.lines)) ∧
    ((definitions d kind).Nodup ↔ d.selections.Pairwise (Apart d.lines)) := by
  refine ⟨outcome_collect hs d, count_declarations d, fun hlines text htext => ?_, nodup_lines_iff,
    nodup_definitions_iff⟩
  rw [outcome_collect hs d, Except.ok.injEq] at htext
  rw [← htext, methods_collected hlines]

/-- Above the first declaration, on it, and below the document, where the second is nearest. -/
theorem collect_nodup_iff_sample : Render.Spaceable Settings.defaults .both ∧
    (∀ l ∈ (twoDeclared [9, 0, 1]).lines, Text.Unbroken l) ∧
    (∃ text, (collect Settings.defaults (twoDeclared [9, 0, 1]) .both).outcome = .ok text ∧
      Render.methods text = ["getA".toList, "setA".toList, "getB".toList, "setB".toList]) ∧
    [9, 0, 1].Pairwise (Apart (twoDeclared []).lines) := by
  have hs : Render.Spaceable Settings.defaults .both := by decide
  have hlines : ∀ l ∈ (twoDeclared [9, 0, 1]).lines, Text.Unbroken l := by
    intro l hl
    apply Text.unbroken_of_all
    revert l
    decide
  obtain ⟨hcollect, -, hmethods, hapart, -⟩ := @collect_nodup_iff Settings.defaults (twoDeclared [9, 0, 1]) .both hs
  have hdistinct : ((declarations (twoDeclared [9, 0, 1])).map Found.line).Nodup := by decide +kernel
  have hdefined : (definitions (twoDeclared [9, 0, 1]) .both).map Prod.snd =
      ["getA".toList, "setA".toList, "getB".toList, "setB".toList] := by decide +kernel
  exact ⟨hs, hlines, ⟨_, hcollect, (hmethods hlines _ hcollect).trans hdefined⟩, hapart.1 hdistinct⟩

/-- A declaration with a line below it, and a cursor on each. -/
def followed : Document := ⟨["$a;".toList, []], languageId, [0, 1], none⟩

/-- Both cursors have the same getter rendered. -/
theorem collect_repeats : ¬((declarations followed).map Found.line).Nodup ∧ ¬(definitions followed .getter).Nodup ∧
    ∃ text, (collect Settings.defaults followed .getter).outcome = .ok text ∧
      Render.methods text = ["getA".toList, "getA".toList] := by
  have hlines : ∀ l ∈ followed.lines, Text.Unbroken l := by
    intro l hl
    apply Text.unbroken_of_all
    revert l
    decide
  have hdefined : (definitions followed .getter).map Prod.snd = ["getA".toList, "getA".toList] := by decide +kernel
  exact ⟨by decide +kernel, by decide +kernel, _, outcome_collect (Render.spaceable_defaults .getter) followed,
    (methods_collected hlines).trans hdefined⟩

end Accessors.Command
