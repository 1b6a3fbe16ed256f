/-
  Accessors.Proofs.Server.Answer — whether a command for a client answers.

  With settings that accessors can be spaced by, two things stop a command for a client:
  arguments that no message was thought of for (`Unforeseen`), and a line in the document
  that a client cannot be told. Of the latter there are none in a document short enough
  (`tellable_of_short`). All this is for a protocol as it is documented.
  - `execute_answers_iff`: in all other cases a command answers, and where it answers no
    the user was shown an error;
  - `execute_stops`: of the arguments that stop it there is one of each kind.
-/
import Accessors.Proofs.Editor.Answer
import Accessors.Proofs.Editor.Workspace
import Accessors.Proofs.Server.Arguments
import Accessors.Proofs.Server.Refinement

namespace Accessors.Server

/-! ## Lines that can be told -/

theorem count_text_le (s : Settings) {p : Property} (hp : p.Of (· ≠ '\n')) (kind : AccessorKind) :
    (Render.text s p kind).count '\n' ≤ 24 := by
  have hgetter : (Render.spacedGetter s p).count '\n' = 10 := Render.count_getterText hp _
  have hsetter : (Render.spacedSetter s p).count '\n' = 14 := Render.count_setterText hp _ _ _
  cases kind with
  | getter => exact hgetter.trans_le (by decide)
  | setter => exact hsetter.trans_le (by decide)
  | both =>
    show (Render.spacedGetter s p ++ Render.spacedSetter s p).count '\n' ≤ 24
    rw [List.count_append, hgetter, hsetter]

theorem count_flatMap_le {α : Type} {f : α → Text} {n : Nat} {as : List α} (h : ∀ a ∈ as, (f a).count '\n' ≤ n) :
    (as.flatMap f).count '\n' ≤ n * as.length := by
  induction as with
  | nil => exact Nat.le_refl _
  | cons a as ih =>
    have ha := h a List.mem_cons_self
    have hrest := ih fun b hb => h b (List.mem_cons_of_mem _ hb)
    rw [List.flatMap_cons, List.count_append, List.length_cons, Nat.mul_succ]
    omega

/-- What a command inserts has a bounded number of lines for each cursor. -/
theorem count_built_le {s : Settings} {kind : AccessorKind} (hs : Render.Spaceable s kind) {d : Document}
    (hd : ∀ l ∈ d.lines, Text.Unbroken l) {i : Insertion} (h : (Command.build s d kind).outcome = .ok (.ok i)) :
    i.text.count '\n' ≤ 24 * d.selections.length := by
  obtain ⟨-, -, -, -, htext⟩ := Command.build_iff.1 h
  have hall := Except.ok.inj (htext.symm.trans (Command.outcome_renderAll hs d.lines d.ordered))
  rw [hall, ← d.perm_ordered.length_eq]
  apply count_flatMap_le
  intro c _
  unfold Command.renderedAt Property.at?
  cases hfound : Property.find? d.lines c with
  | none => exact Nat.zero_le _
  | some found =>
    exact count_text_le s (Property.of_find? Text.wordy_ne_feed (fun l hl => Text.of_ne_iff.2 (hd l hl).not_mem) hfound) kind

theorem tellable_of_short {s : Settings} {kind : AccessorKind} (hs : Render.Spaceable s kind) {d : Document}
    (hd : ∀ l ∈ d.lines, Text.Unbroken l)
    (hshort : (d.lines.length + 24 * d.selections.length : Int) ≤ maxLine) (editor : Insertion → Reply) :
    ∀ e ∈ (Command.run s d kind editor).trace, Tellable e := by
  intro e he
  rcases Command.run_events e he with hmessage | ⟨i, hi, he⟩
  · rcases hmessage with ⟨n, rfl⟩ | ⟨t, rfl⟩
    · exact trivial
    · exact trivial
  · obtain ⟨A, b, B, T, hcut, hline, -, -, hT⟩ := Command.build_ok hd hi
    obtain ⟨c, hc, -⟩ := Workspace.redirectLine_eq hline hT
    have hcount := count_built_le hs hd hi
    have hlength := congrArg List.length hcut
    rw [List.length_append, List.length_cons] at hlength
    have hredirect : i.redirectLine = A.length + i.text.count '\n' - 1 := by rw [Insertion.redirectLine, hline]
    rcases he with rfl | rfl
    · show 0 ≤ i.line ∧ i.line ≤ maxLine
      omega
    · show 0 ≤ i.redirectLine ∧ i.redirectLine ≤ maxLine
      omega

/-! ## Arguments -/

/-- Arguments that stop a command: a document that has no members, an infinite line, or an
    address that is no text. -/
inductive Unforeseen (members : List (Codes × Value)) : Prop
  | document : Memberless members → Unforeseen members
  | line {address : Value} : addressOf members = .ok address → EndlessLine members → Unforeseen members
  | address {address : Value} {lines : List Int} : addressOf members = .ok address → linesOf members = .ok lines →
      (∀ uri, address ≠ .str uri) → Unforeseen members

/-- The command that a command for a client is. -/
def served (client : Client) (d : OpenDocument) (kind : AccessorKind) (uri : Codes) (lines : List Int) :
    Command.Step Bool :=
  Command.run client.settings (Document.ofText d.text lines (languageOf d.languageId uri) (some uri)) kind
    fun _ => client.reply

variable {protocol : Protocol} {client : Client} {d : OpenDocument} {kind : AccessorKind} {args : List Value}

theorem execute_unread {f : ArgumentFault} (h : Arguments.ofList args = .error f) : execute protocol client d kind args =
    match unforeseen? f with
    | some fault => Traced.stop fault
    | none => tell ("Invalid command arguments: ".toList ++ f.message) >>= fun _ => pure false := by
  unfold execute
  generalize Arguments.ofList args = read at h
  subst h
  rfl

theorem text_or_not (address : Value) : (∃ uri, address = .str uri) ∨ ∀ uri, address ≠ .str uri := by
  cases address with
  | str uri => exact .inl ⟨uri, rfl⟩
  | null | bool b | int n | float x | list items | object members => exact .inr (by simp)

theorem reply_ne_broken (client : Client) (fault : Fault) : client.reply ≠ .broken fault := by
  unfold Client.reply
  cases client.applyEdit with
  | error t => simp
  | ok answer =>
    dsimp only
    split
    · simp
    · split <;> simp

theorem served_ok (hs : Render.Spaceable client.settings kind) (uri : Codes) (lines : List Int) :
    ∃ yes, (served client d kind uri lines).outcome = .ok yes := by
  cases ho : (served client d kind uri lines).outcome with
  | ok yes => exact ⟨yes, rfl⟩
  | error fault =>
    obtain ⟨-, hover⟩ := (Command.run_eq_error fun _ _ => reply_ne_broken client).1 ho
    obtain ⟨key, hkey, hcount⟩ := hover.count
    exact absurd (hs key hkey) (Nat.not_lt.2 hcount)

/-- Where an address and lines were read, nothing but the address can be unforeseen. -/
theorem unforeseen_read {members : List (Codes × Value)} {address : Value} {lines : List Int}
    (ha : addressOf members = .ok address) (hl : linesOf members = .ok lines) :
    Unforeseen members ↔ ∀ uri, address ≠ .str uri := by
  constructor
  · intro h
    cases h with
    | document hmemberless =>
      have hescape : escape? (addressOf members) = some Fault.noMembers := escapes_addressOf.2 ⟨rfl, hmemberless⟩
      rw [ha] at hescape
      cases hescape
    | line _ hendless =>
      have hescape := escapes_linesOf.2 ⟨rfl, hendless⟩
      rw [hl] at hescape
      cases hescape
    | address ha' _ htext =>
      obtain rfl := Except.ok.inj (ha.symm.trans ha')
      exact htext
  · exact .address ha hl

/-- Where they were not, the fault decides. -/
theorem unforeseen_unread {members : List (Codes × Value)} {f : ArgumentFault}
    (h : Arguments.ofObject members = .error f) : Unforeseen members ↔ (unforeseen? f).isSome = true := by
  have hescape : ∀ fault, escape? (Arguments.ofObject members) = some fault ↔ unforeseen? f = some fault := by
    intro fault
    rw [h]
    rfl
  rw [Option.isSome_iff_exists]
  simp only [← hescape, escapes_ofObject]
  constructor
  · intro hu
    cases hu with
    | document hmemberless => exact ⟨_, .inl ⟨rfl, hmemberless⟩⟩
    | line ha hendless => exact ⟨_, .inr ⟨rfl, hendless, _, ha⟩⟩
    | address ha hl => cases (ofObject_eq_ok.2 ⟨ha, hl⟩).symm.trans h
  · rintro ⟨_, ⟨-, hmemberless⟩ | ⟨-, hendless, address, ha⟩⟩
    · exact .document hmemberless
    · exact .line ha hendless

section Documented

variable (hprotocol : protocol.Documented)
include hprotocol

/-- No command answers for an address that is no text, which the protocol refuses. -/
theorem execute_noText {address : Value} {lines : List Int} (h : Arguments.ofList args = .ok ⟨address, lines⟩)
    (htext : ∀ uri, address ≠ .str uri) (yes : Bool) : (execute protocol client d kind args).outcome ≠ .ok yes := by
  cases hscope : protocol.scope address with
  | ok uri => exact absurd ((hprotocol.scope _ _).1 hscope) (htext uri)
  | error t =>
    unfold execute
    rw [h]
    dsimp only
    unfold toAddress
    rw [hscope]
    intro h
    cases h

theorem execute_read {uri : Codes} {lines : List Int} (h : Arguments.ofList args = .ok ⟨.str uri, lines⟩) :
    seen (execute protocol client d kind args) = told protocol uri (served client d kind uri lines) :=
  seen_execute hprotocol client h d.text d.languageId kind (seen_fetchSettings client _)

theorem execute_eq_ok {uri : Codes} {lines : List Int} (h : Arguments.ofList args = .ok ⟨.str uri, lines⟩) {yes : Bool} :
    (execute protocol client d kind args).outcome = .ok yes ↔
      (∀ e ∈ (served client d kind uri lines).trace, Tellable e) ∧ (served client d kind uri lines).outcome = .ok yes := by
  have hseen : (seen (execute protocol client d kind args)).outcome =
      (told protocol uri (served client d kind uri lines)).outcome := by rw [execute_read hprotocol h]
  have hkeep : (∀ e ∈ ((served client d kind uri lines).keep Accessors.Event.isSeen).trace, protocol.Takes e) ↔
      ∀ e ∈ (served client d kind uri lines).trace, Tellable e := by
    simp only [hprotocol.takes_iff]
    constructor
    · intro htold e he
      cases e with
      | notice n => exact trivial
      | error t | info t => exact trivial
      | insert i | goTo line => exact htold _ (List.mem_filter.2 ⟨he, rfl⟩)
    · exact fun htold e he => htold e (List.mem_filter.1 he).1
  show (seen (execute protocol client d kind args)).outcome = .ok yes ↔ _
  rw [hseen, told, relay_eq_ok, hkeep]
  rfl

/-- With an object of arguments, it is the arguments or a line that stops a command. -/
theorem answers_object (hs : Render.Spaceable client.settings kind) {members : List (Codes × Value)}
    (hargs : Arguments.ofList args = Arguments.ofObject members) :
    (∃ yes, (execute protocol client d kind args).outcome = .ok yes) ↔
      ¬Unforeseen members ∧ ∀ uri lines, addressOf members = .ok (.str uri) → linesOf members = .ok lines →
        ∀ e ∈ (served client d kind uri lines).trace, Tellable e := by
  cases ho : Arguments.ofObject members with
  | error f =>
    rw [ho] at hargs
    have hvacuous : ∀ uri lines, addressOf members = .ok (.str uri) → linesOf members = .ok lines →
        ∀ e ∈ (served client d kind uri lines).trace, Tellable e := by
      intro uri lines ha hl
      cases (ofObject_eq_ok.2 ⟨ha, hl⟩).symm.trans ho
    rw [execute_unread hargs, unforeseen_unread ho, and_iff_left hvacuous]
    cases unforeseen? f with
    | some fault =>
      refine ⟨?_, fun h => absurd rfl h⟩
      rintro ⟨_, h⟩
      cases h
    | none => exact ⟨fun _ => Bool.false_ne_true, fun _ => ⟨false, rfl⟩⟩
  | ok arguments =>
    obtain ⟨address, lines⟩ := arguments
    obtain ⟨ha, hl⟩ := ofObject_eq_ok.1 ho
    rw [ho] at hargs
    rw [unforeseen_read ha hl]
    rcases text_or_not address with ⟨uri, rfl⟩ | htext
    · obtain ⟨yes, hyes⟩ := served_ok (d := d) hs uri lines
      constructor
      · rintro ⟨yes, h⟩
        refine ⟨fun htext => htext uri rfl, fun uri' lines' ha' hl' => ?_⟩
        cases ha.symm.trans ha'
        cases hl.symm.trans hl'
        exact ((execute_eq_ok hprotocol hargs).1 h).1
      · exact fun h => ⟨yes, (execute_eq_ok hprotocol hargs).2 ⟨h.2 uri lines ha hl, hyes⟩⟩
    · refine ⟨?_, fun h => absurd htext h.1⟩
      rintro ⟨yes, hyes⟩
      exact absurd hyes (execute_noText hprotocol hargs htext yes)

/-- A command for a client that answers no has shown an error. -/
theorem false_told (h : (execute protocol client d kind args).outcome = .ok false) :
    ∃ t, .error t ∈ (execute protocol client d kind args).trace := by
  cases hargs : Arguments.ofList args with
  | error f =>
    rw [execute_unread hargs] at h ⊢
    cases hf : unforeseen? f with
    | some fault =>
      rw [hf] at h
      cases h
    | none => exact ⟨_, List.mem_cons_self⟩
  | ok arguments =>
    obtain ⟨address, lines⟩ := arguments
    rcases text_or_not address with ⟨uri, rfl⟩ | htext
    · obtain ⟨htold, hrun⟩ := (execute_eq_ok hprotocol hargs).1 h
      obtain ⟨t, ht⟩ := Command.run_false_told hrun
      refine ⟨t, ?_⟩
      have hseen : .error t ∈ (seen (execute protocol client d kind args)).trace := by
        rw [execute_read hprotocol hargs, told_tellable hprotocol htold]
        exact List.mem_map.2 ⟨.error t, List.mem_filter.2 ⟨ht, rfl⟩, rfl⟩
      exact (List.mem_filter.1 hseen).1
    · exact absurd h (execute_noText hprotocol hargs htext false)

end Documented

/-! ## Whether there is an answer -/

/-- A command for a client answers, whatever its arguments, unless these are not foreseen
    or it names a line that cannot be told; and the user is told of an answer of no. -/
theorem execute_answers_iff {protocol : Protocol} (hprotocol : protocol.Documented) (client : Client)
    (d : OpenDocument) (kind : AccessorKind) (args : List Value) (hs : Render.Spaceable client.settings kind) :
    ((∃ yes, (execute protocol client d kind args).outcome = .ok yes) ↔ ∀ members, payload? args = some members →
      ¬Unforeseen members ∧ ∀ uri lines, addressOf members = .ok (.str uri) → linesOf members = .ok lines →
        ∀ e ∈ (served client d kind uri lines).trace, Tellable e) ∧
    ((execute protocol client d kind args).outcome = .ok false →
      ∃ t, .error t ∈ (execute protocol client d kind args).trace) := by
  refine ⟨?_, false_told hprotocol⟩
  have hargs := ofList_eq args
  cases hp : payload? args with
  | none =>
    rw [hp] at hargs
    rw [execute_unread hargs]
    refine ⟨fun _ _ h => ?_, fun _ => ⟨false, rfl⟩⟩
    cases h
  | some members =>
    rw [hp] at hargs
    simp only [Option.some.injEq, forall_eq']
    exact answers_object hprotocol hs hargs

theorem execute_answers_sample : Render.Spaceable sampleClient.settings .getter ∧
    ∃ yes, (execute sampleProtocol sampleClient ⟨sample, none⟩ .getter sampleArguments).outcome = .ok yes := by
  have hs : Render.Spaceable sampleClient.settings .getter := by decide
  refine ⟨hs, (execute_answers_iff documented_sample sampleClient ⟨sample, none⟩ .getter sampleArguments hs).1.2 ?_⟩
  intro members hmembers
  obtain rfl := Option.some.inj hmembers
  have hread : Arguments.ofList sampleArguments = .ok ⟨.str sampleAddress, [0]⟩ := by rfl
  obtain ⟨ha, hl⟩ := ofObject_eq_ok.1 hread
  -- The arguments can be read, and their address is a text.
  refine ⟨fun h => (unforeseen_read ha hl).1 h _ rfl, ?_⟩
  intro uri lines ha' hl'
  cases ha.symm.trans ha'
  cases hl.symm.trans hl'
  exact tellable_of_short hs (fun _ hm => Text.unbroken_of_mem_lines hm) (by decide +kernel) _

/-- Arguments that no message was thought of for: a document that is a list, an infinite
    line, and an address that is a number. -/
def strangeArguments : List (List (Codes × Value)) :=
  [[(key "textDocument", .list [.int 1]), (key "selections", .list [.int 1])],
    [(key "uri", .str (key "file:///a.php")),
      (key "selections", .list [.object [(key "line", .float (.infinite false))]])],
    [(key "uri", .int 1), (key "selections", .list [.int 1])]]

/-- With the defaults for settings they stop a command. -/
theorem execute_stops : sampleClient.settings = Settings.defaults ∧ ∀ members ∈ strangeArguments,
    ¬∃ yes, (execute sampleProtocol sampleClient ⟨sample, none⟩ .getter [.object members]).outcome = .ok yes := by
  refine ⟨rfl, ?_⟩
  intro members hmembers
  simp only [strangeArguments, List.mem_cons, List.not_mem_nil, or_false] at hmembers
  rintro ⟨yes, hyes⟩
  rcases hmembers with rfl | rfl | rfl
  · cases hyes
  · cases hyes
  · cases hyes

end Accessors.Server
