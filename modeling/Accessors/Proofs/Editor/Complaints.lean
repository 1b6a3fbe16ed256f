/-
  Accessors.Proofs.Editor.Complaints — a badly typed setting is as good as none.

  A command reads the counts of its accessors at each cursor at or above which a property
  is declared, and whether the cursor follows once its insertion was accepted (`reads`). A
  complaint about a setting is made where the setting is read and leads to nothing else,
  so two mappings of which the same is read give the same command, complaints or other
  notices apart (`Reads`, `keep_run`), step by step from the spaces of a key upward.
  - `run_typed`: so a command is the same without the settings that do not fit, but for
    one complaint each time one of these is read, and with zeros for counts below zero it
    is the same altogether.
-/
import Accessors.Proofs.Editor.Calls
import Accessors.Proofs.Settings.Typed

namespace Accessors

/-- Whether something is said of a setting. -/
def Log.Notice.isComplaint (n : Log.Notice) : Bool :=
  decide (n.level = Log.Level.warning ∧ n.logger = Log.logger "configuration")

/-- The notices of a class, and all that are no notices. -/
def Event.passes (p : Log.Notice → Bool) : Event → Bool
  | .notice n => p n
  | _ => true

def Event.isComplaint : Event → Bool
  | .notice n => n.isComplaint
  | _ => false

/-- Of `t` the same is read as of `s`, and of the notices that this gives those of a class. -/
structure Settings.ReadAs (p : Log.Notice → Bool) (s t : Settings) : Prop where
  spaces : ∀ key ∈ spacingKeys, (s.spaces key).keep p = t.spaces key
  redirect : s.redirect.keep p = t.redirect
  /-- All that is not said of a setting is in the class. -/
  others : ∀ n : Log.Notice, n.isComplaint = false → p n = true

namespace Command

open Settings (ReadAs spacingKeys redirectKey)

/-- The keys that a command reads behind its insertion, by its answer. -/
def readBehind : Except Fault Bool → List Codes
  | .ok true => [redirectKey]
  | _ => []

/-- The keys that a command reads, in order, if this is its answer. -/
def reads (d : Document) (kind : AccessorKind) (answer : Except Fault Bool) : List Codes :=
  if d.languageId = languageId then
    (d.ordered.filter (Property.declared d.lines)).flatMap (fun _ => Render.spacing kind) ++ readBehind answer
  else []

/-! ## The same command -/

section Keep

variable {p : Log.Notice → Bool} {s t : Settings} {kind : AccessorKind}

theorem keep_quietly_passes {α : Type} (x : Settings.Reading α) :
    (quietly x).keep (Event.passes p) = quietly (x.keep p) := by
  show (⟨(x.trace.map Event.notice).filter (Event.passes p), x.outcome⟩ : Step α) = _
  rw [List.filter_map]
  rfl

theorem keep_rendered (h : ReadAs p s t) (what : String) (method : Text) :
    (Traced.emit (Render.rendered what method) : Settings.Reading Unit).keep p =
      Traced.emit (Render.rendered what method) := Traced.keep_emit (h.others _ rfl)

theorem keep_getter (h : ReadAs p s t) (q : Property) : (Render.getter s q).keep p = Render.getter t q := by
  unfold Render.getter
  rw [Traced.keep_bind, h.spaces _ (by decide)]
  congr 1
  funext afterReturn
  rw [Traced.keep_bind, keep_rendered h]
  rfl

theorem keep_setter (h : ReadAs p s t) (q : Property) : (Render.setter s q).keep p = Render.setter t q := by
  unfold Render.setter
  rw [Traced.keep_bind, h.spaces _ (by decide)]
  congr 1
  funext afterParam
  rw [Traced.keep_bind, h.spaces _ (by decide)]
  congr 1
  funext afterVar
  rw [Traced.keep_bind, h.spaces _ (by decide)]
  congr 1
  funext afterReturn
  rw [Traced.keep_bind, keep_rendered h]
  rfl

theorem keep_accessors (h : ReadAs p s t) (q : Property) :
    (Render.accessors s q kind).keep p = Render.accessors t q kind := by
  cases kind with
  | getter => exact keep_getter h q
  | setter => exact keep_setter h q
  | both =>
    unfold Render.accessors
    rw [Traced.keep_bind, keep_getter h]
    congr 1
    funext g
    rw [Traced.keep_bind, keep_setter h]
    rfl

theorem keep_note (h : ReadAs p s t) {level : Int} {part : String} (hpart : Log.logger part ≠ Log.logger "configuration")
    (message : Text) : (note level part message).keep (Event.passes p) = note level part message :=
  Traced.keep_emit (h.others _ (decide_eq_false fun hc => hpart hc.2))

theorem keep_renderAt_passes (h : ReadAs p s t) (lines : List Text) (cursor : Int) :
    (renderAt s kind lines cursor).keep (Event.passes p) = renderAt t kind lines cursor := by
  unfold renderAt
  cases Property.find? lines cursor with
  | none =>
    dsimp only
    rw [Traced.keep_bind, keep_note h (by decide)]
    rfl
  | some found =>
    dsimp only
    rw [Traced.keep_bind, keep_note h (by decide)]
    congr 1
    funext _
    rw [keep_quietly_passes, keep_accessors h]

theorem keep_renderAll_passes (h : ReadAs p s t) (lines : List Text) (cursors : List Int) :
    (renderAll s kind lines cursors).keep (Event.passes p) = renderAll t kind lines cursors := by
  induction cursors with
  | nil => rfl
  | cons c cursors ih =>
    unfold renderAll
    rw [Traced.keep_bind, keep_renderAt_passes h]
    congr 1
    funext text
    rw [Traced.keep_bind, ih]
    rfl

theorem keep_prepare_passes (h : ReadAs p s t) (d : Document) :
    (prepare s d kind).keep (Event.passes p) = prepare t d kind := by
  have hbuild : (build s d kind).keep (Event.passes p) = build t d kind := by
    unfold build collect
    rw [Traced.keep_bind, keep_renderAll_passes h]
    congr 1
    funext text
    split
    · rfl
    · split <;> rfl
  unfold prepare
  rw [Traced.keep_bind, hbuild]
  congr 1
  funext r
  cases r <;> rfl

theorem keep_settled_passes (h : ReadAs p s t) (i : Insertion) (r : Reply) :
    (settled s i r).keep (Event.passes p) = settled t i r := by
  have hreport : ∀ reason, (reportFailure reason).keep (Event.passes p) = reportFailure reason := by
    intro reason
    unfold reportFailure
    rw [Traced.keep_bind, keep_note h (by decide)]
    rfl
  cases r with
  | broken fault => rfl
  | refused | failed reason => exact hreport _
  | accepted =>
    show (redirected s i).keep (Event.passes p) = redirected t i
    unfold redirected
    rw [Traced.keep_bind, keep_quietly_passes, h.redirect]
    congr 1
    funext v
    split <;> rfl

theorem keep_run (h : ReadAs p s t) (d : Document) (editor : Insertion → Reply) :
    (run s d kind editor).keep (Event.passes p) = run t d kind editor := by
  unfold run
  split
  · rw [runIn_eq, runIn_eq, Traced.keep_bind, keep_prepare_passes h]
    congr 1
    funext r
    cases r with
    | none => rfl
    | some i =>
      dsimp only [Option.elim_some]
      rw [Traced.keep_bind]
      show Traced.emit (Event.insert i) >>= (fun _ => (settled s i (editor i)).keep (Event.passes p)) = _
      rw [keep_settled_passes h]
  · rfl

end Keep

/-! ## What is said of the settings -/

section Complaints

variable {s : Settings} {d : Document} {kind : AccessorKind}

theorem isComplaint_of_mem {key : Codes} {n : Log.Notice} (h : n ∈ s.complaints key) : n.isComplaint = true := by
  obtain ⟨v, -, rfl⟩ := List.mem_map.1 h
  rfl

theorem keep_spaces {key : Codes} (hk : key ∈ spacingKeys) (hcount : s.count key < Settings.countLimit) :
    (s.spaces key).keep Log.Notice.isComplaint = ⟨s.complaints key, .ok (Text.spaces (s.count key))⟩ := by
  rw [Settings.spaces_eq hk, if_neg (by omega)]
  unfold Traced.keep
  rw [List.filter_eq_self.2 fun n hn => isComplaint_of_mem hn]

theorem keep_accessors_complaints (hs : Render.Spaceable s kind) (q : Property) :
    (Render.accessors s q kind).keep Log.Notice.isComplaint =
      ⟨(Render.spacing kind).flatMap s.complaints, .ok (Render.text s q kind)⟩ := by
  have hgetter : Render.Spaceable s .getter → (Render.getter s q).keep Log.Notice.isComplaint =
      ⟨(Render.spacing .getter).flatMap s.complaints, .ok (Render.spacedGetter s q)⟩ := by
    intro h
    unfold Render.getter
    rw [Traced.keep_bind, keep_spaces (by decide) (h _ (by decide)), Traced.mk_ok_bind]
    rfl
  have hsetter : Render.Spaceable s .setter → (Render.setter s q).keep Log.Notice.isComplaint =
      ⟨(Render.spacing .setter).flatMap s.complaints, .ok (Render.spacedSetter s q)⟩ := by
    intro h
    unfold Render.setter
    rw [Traced.keep_bind, keep_spaces (by decide) (h _ (by decide)), Traced.mk_ok_bind,
      Traced.keep_bind, keep_spaces (by decide) (h _ (by decide)), Traced.mk_ok_bind,
      Traced.keep_bind, keep_spaces (by decide) (h _ (by decide)), Traced.mk_ok_bind]
    rfl
  cases kind with
  | getter => exact hgetter hs
  | setter => exact hsetter hs
  | both =>
    obtain ⟨hg, ht⟩ := List.forall_mem_append.1 hs
    show (Render.getter s q >>= fun g => Render.setter s q >>= fun t => pure (g ++ t)).keep _ = _
    rw [Traced.keep_bind, hgetter hg, Traced.mk_ok_bind, Traced.keep_bind, hsetter ht, Traced.mk_ok_bind]
    show (⟨_ ++ (_ ++ []), _⟩ : Settings.Reading Text) = _
    rw [List.append_nil, ← List.flatMap_append]
    rfl

/-- The complaints about the keys, one after the other. -/
def saidOf (s : Settings) (keys : List Codes) : List Event := (keys.flatMap s.complaints).map .notice

theorem saidOf_append (s : Settings) (a b : List Codes) : saidOf s (a ++ b) = saidOf s a ++ saidOf s b := by
  unfold saidOf
  rw [List.flatMap_append, List.map_append]

theorem keep_quietly_complaints {α : Type} (x : Settings.Reading α) :
    (quietly x).keep Event.isComplaint = quietly (x.keep Log.Notice.isComplaint) := by
  show (⟨(x.trace.map Event.notice).filter Event.isComplaint, x.outcome⟩ : Step α) = _
  rw [List.filter_map]
  rfl

/-- The keys that are read for some cursors. -/
def readsAt (kind : AccessorKind) (lines : List Text) (cursors : List Int) : List Codes :=
  (cursors.filter (Property.declared lines)).flatMap fun _ => Render.spacing kind

theorem keep_renderAt_complaints (hs : Render.Spaceable s kind) (lines : List Text) (c : Int) :
    (renderAt s kind lines c).keep Event.isComplaint =
      ⟨saidOf s (readsAt kind lines [c]), .ok (renderedAt s kind lines c)⟩ := by
  unfold readsAt
  rw [List.filter_singleton, ← Property.isSome_at?]
  unfold renderAt renderedAt Property.at?
  cases Property.find? lines c with
  | none => rfl
  | some found =>
    show (note _ _ _ >>= fun _ => quietly (Render.accessors s found.property kind)).keep Event.isComplaint = _
    rw [Traced.keep_bind, keep_quietly_complaints, keep_accessors_complaints hs]
    show _ = (⟨saidOf s (Render.spacing kind ++ []), _⟩ : Step Text)
    rw [List.append_nil]
    rfl

theorem keep_renderAll_complaints (hs : Render.Spaceable s kind) (lines : List Text) (cursors : List Int) :
    (renderAll s kind lines cursors).keep Event.isComplaint =
      ⟨saidOf s (readsAt kind lines cursors), .ok (cursors.flatMap (renderedAt s kind lines))⟩ := by
  induction cursors with
  | nil => rfl
  | cons c cursors ih =>
    have hcons : readsAt kind lines (c :: cursors) = readsAt kind lines [c] ++ readsAt kind lines cursors := by
      unfold readsAt
      rw [← List.flatMap_append, ← List.filter_append]
      rfl
    unfold renderAll
    rw [Traced.keep_bind, keep_renderAt_complaints hs, Traced.mk_ok_bind, Traced.keep_bind, ih, Traced.mk_ok_bind,
      hcons, saidOf_append]
    show (⟨_ ++ (_ ++ []), _⟩ : Step Text) = _
    rw [List.append_nil]
    rfl

theorem keep_prepare_complaints (hs : Render.Spaceable s kind) : ∃ r,
    (prepare s d kind).keep Event.isComplaint = ⟨saidOf s (readsAt kind d.lines d.ordered), .ok r⟩ := by
  have hbuild : ∃ r, (build s d kind).keep Event.isComplaint = ⟨saidOf s (readsAt kind d.lines d.ordered), .ok r⟩ := by
    unfold build collect
    rw [Traced.keep_bind, keep_renderAll_complaints hs, Traced.mk_ok_bind]
    split
    · exact ⟨_, congrArg (Traced.mk · _) (List.append_nil _)⟩
    · split
      · exact ⟨_, congrArg (Traced.mk · _) (List.append_nil _)⟩
      · exact ⟨_, congrArg (Traced.mk · _) (List.append_nil _)⟩
  obtain ⟨r, hr⟩ := hbuild
  unfold prepare
  rw [Traced.keep_bind, hr, Traced.mk_ok_bind]
  cases r with
  | ok i => exact ⟨_, congrArg (Traced.mk · _) (List.append_nil _)⟩
  | error o => exact ⟨_, congrArg (Traced.mk · _) (List.append_nil _)⟩

theorem keep_settled_complaints (s : Settings) (i : Insertion) (r : Reply) :
    (settled s i r).keep Event.isComplaint = ⟨saidOf s (readBehind (settled s i r).outcome), (settled s i r).outcome⟩ := by
  cases r with
  | broken fault | refused | failed reason => rfl
  | accepted =>
    have houtcome : (redirected s i).outcome = .ok true := outcome_redirected s.outcome_redirect i
    show (redirected s i).keep Event.isComplaint = ⟨saidOf s (readBehind (redirected s i).outcome), (redirected s i).outcome⟩
    rw [houtcome]
    unfold redirected
    rw [Traced.keep_bind, keep_quietly_complaints, s.redirect_eq]
    unfold Traced.keep
    dsimp only
    rw [List.filter_eq_self.2 fun n hn => isComplaint_of_mem hn]
    show _ = (⟨((s.complaints redirectKey ++ []).map .notice), .ok true⟩ : Step Bool)
    rw [List.append_nil]
    show (⟨(s.complaints redirectKey).map .notice, .ok (Value.bool s.follows)⟩ : Step Value) >>= _ = _
    rw [Traced.mk_ok_bind]
    cases s.follows <;> exact congrArg (Traced.mk · _) (List.append_nil _)

theorem complaints_run (hs : Render.Spaceable s kind) (d : Document) (editor : Insertion → Reply) :
    (run s d kind editor).trace.filter Event.isComplaint =
      saidOf s (reads d kind (run s d kind editor).outcome) := by
  unfold run reads
  split
  · obtain ⟨r, hr⟩ := keep_prepare_complaints (d := d) hs
    have hkeep : (runIn s d kind editor).keep Event.isComplaint =
        ⟨saidOf s (readsAt kind d.lines d.ordered ++ readBehind (runIn s d kind editor).outcome),
          (runIn s d kind editor).outcome⟩ := by
      have houtcome : (runIn s d kind editor).outcome = ((runIn s d kind editor).keep Event.isComplaint).outcome := rfl
      rw [houtcome, runIn_eq, Traced.keep_bind, hr, Traced.mk_ok_bind, saidOf_append]
      cases r with
      | none => rfl
      | some i =>
        have hsettled := keep_settled_complaints s i (editor i)
        show (⟨_ ++ ([] ++ ((settled s i (editor i)).keep Event.isComplaint).trace), _⟩ : Step Bool) = _
        rw [hsettled, List.nil_append]
        rfl
    exact congrArg Traced.trace hkeep
  · rfl

end Complaints

/-! ## A command -/

theorem readAs_typed (es : Entries Codes Value) :
    ReadAs (fun n => !n.isComplaint) (Settings.ofEntries es) (Settings.ofEntries es).typed := by
  have hnone : ∀ key, ((Settings.ofEntries es).complaints key).filter (fun n => !n.isComplaint) = [] := by
    intro key
    rw [List.filter_eq_nil_iff]
    intro n hn
    rw [isComplaint_of_mem hn]
    decide
  refine ⟨fun key hk => ?_, ?_, fun n hn => by rw [hn]; rfl⟩
  · rw [Settings.spaces_eq hk, Settings.spaces_eq hk, Settings.complaints_typed, Settings.count_typed hk]
    unfold Traced.keep
    rw [hnone]
  · rw [Settings.redirect_eq, Settings.redirect_eq, Settings.complaints_typed, Settings.follows_typed]
    unfold Traced.keep
    rw [hnone]

theorem readAs_raised (s : Settings) : ReadAs (fun _ => true) s.raised s := by
  refine ⟨fun key hk => ?_, ?_, fun _ _ => rfl⟩
  · rw [Traced.keep_all fun _ => rfl, Settings.spaces_eq hk, Settings.spaces_eq hk, s.complaints_raised,
      s.count_raised hk]
  · rw [Traced.keep_all fun _ => rfl, Settings.redirect_eq, Settings.redirect_eq, s.complaints_raised,
      s.follows_raised]

/-- For all settings, however they are written, any document and any editor, by `s` and by
    the settings of which all that does not fit is left out, a null also: the user sees
    the same of a command, and it comes to the same; and its trace is the same but for
    the complaints, of which there are none in the second. With counts of spaces that can
    be held there is one each time a key is read under which a value does not fit, and
    none for a null. Counts below zero are as good as zeros. -/
theorem run_typed (es : Entries Codes Value) (d : Document) (kind : AccessorKind) (editor : Insertion → Reply) :
    let s := Settings.ofEntries es
    (run s d kind editor).keep Event.isSeen = (run s.typed d kind editor).keep Event.isSeen ∧
    (run s d kind editor).keep (fun e => !e.isComplaint) = run s.typed d kind editor ∧
    (Render.Spaceable s kind → (run s d kind editor).trace.filter Event.isComplaint =
      ((reads d kind (run s d kind editor).outcome).flatMap s.complaints).map .notice) ∧
    run s.raised d kind editor = run s d kind editor := by
  intro s
  have hpasses : Event.passes (fun n => !n.isComplaint) = fun e => !e.isComplaint := by
    funext e
    cases e <;> rfl
  have hrun : (run s d kind editor).keep (Event.passes fun n => !n.isComplaint) = run s.typed d kind editor :=
    keep_run (readAs_typed es) d editor
  rw [hpasses] at hrun
  refine ⟨?_, hrun, fun hs => complaints_run hs d editor, ?_⟩
  · rw [← hrun, Traced.keep_keep]
    intro e he
    cases e with
    | notice n => cases he
    | error t | info t | insert i | goTo line => rfl
  · rw [← keep_run (readAs_raised s) d editor, Traced.keep_all]
    intro e
    cases e <;> rfl

/-- A count that is a fraction by its type, a null, a count below zero, and a word for a
    truth value, written in different ways. -/
def mistyped : Entries Codes Value := [
  (Settings.sectionMark ++ Settings.spacesAfterReturn, .float (.finite false 2 0)),
  (Settings.spacesAfterParam, .null),
  (Settings.sectionName, .object [(Settings.spacesAfterParamVar, .int (-3)), (redirectKey, .text "no".toList)])]

/-- The accessors of a property: what is behind the tag of the result is read for both. -/
theorem run_typed_sample :
    let s := Settings.ofEntries mistyped
    let returned := Settings.complaint Settings.spacesAfterReturn (.float (.finite false 2 0)) "an integer".toList
      (Text.codes "2".toList)
    Render.Spaceable s .both ∧ (run s sampleDocument .both fun _ => .accepted).outcome = .ok true ∧
      (run s sampleDocument .both fun _ => .accepted).trace.filter Event.isComplaint =
        [returned, returned, Settings.complaint redirectKey (.text "no".toList) "a boolean".toList
          (Text.codes "True".toList)].map .notice := by
  intro s returned
  have hs : Render.Spaceable s .both := by decide
  have houtcome : (run s sampleDocument .both fun _ => .accepted).outcome = .ok true := by decide +kernel
  have hsaid := (run_typed mistyped sampleDocument .both fun _ => .accepted).2.2.1 hs
  rw [houtcome] at hsaid
  refine ⟨hs, houtcome, hsaid.trans (congrArg (List.map Event.notice) ?_)⟩
  decide +kernel

end Command

end Accessors
