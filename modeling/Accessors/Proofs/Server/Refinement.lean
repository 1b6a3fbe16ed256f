/-
  Accessors.Proofs.Server.Refinement — a command for a client is the command.

  A client is an editor (`Client.reply`): an edit that was applied is accepted, one that
  was not is refused, or failed if the client gives a reason, and a request that fails
  fails with its text. The document that a client has open is the document of its text,
  lines with other breaks at their end aside (`alikeLines_kept`).
  - `execute_refines`: what is seen of a command for a client is what the client is told
    of the command on that document, with that editor, under the settings that the client
    answered; with the same answer, or the same fault. If a client can be told all its
    lines, these are the same events one by one.
-/
import Accessors.Proofs.Editor.Alike
import Accessors.Proofs.Server.Relay

namespace Accessors.Server

open Traced (keep)

/-- The client as an editor. -/
def Client.reply (client : Client) : Reply :=
  match client.applyEdit with
  | .error t => .failed t
  | .ok answer =>
    if answer.applied then .accepted
    else match answer.reason.filter fun t => !t.isEmpty with
      | some reason => .failed reason
      | none => .refused

/-- What is seen of a step. -/
def seen {α : Type} (x : Step α) : Step α := x.keep Event.isSeen

def told {α : Type} (protocol : Protocol) (address : Codes) (x : Command.Step α) : Step α :=
  relay protocol address (x.keep Accessors.Event.isSeen)

variable {α β : Type} {protocol : Protocol}

theorem seen_bind (x : Step α) (f : α → Step β) : seen (x >>= f) = seen x >>= fun a => seen (f a) :=
  Traced.keep_bind _ x f

theorem told_bind (address : Codes) (x : Command.Step α) (f : α → Command.Step β) :
    told protocol address (x >>= f) = told protocol address x >>= fun a => told protocol address (f a) := by
  unfold told
  rw [Traced.keep_bind, relay_bind]

theorem told_messages {address : Codes} {x : Command.Step α} (h : Traced.Only Accessors.Event.IsMessage x) :
    seen (x.mapTrace (Event.ofCommand address)) = told protocol address x := (relay_messages h).symm

theorem told_emit {address : Codes} {e : Accessors.Event} (h : e.isSeen = true) :
    told protocol address (Traced.emit e) = relayed protocol address e := by
  have hkeep : (Traced.emit e : Command.Step Unit).keep Accessors.Event.isSeen = Traced.emit e := by
    unfold Traced.keep Traced.emit
    dsimp only
    rw [List.filter_cons_of_pos h, List.filter_nil]
  unfold told
  rw [hkeep, relay_emit]

theorem seen_toldLine (line : Int) : seen (toldLine protocol line) = toldLine protocol line := by
  unfold toldLine
  cases protocol.position line <;> rfl

/-! ## Behind the insertion -/

theorem seen_requestLine (client : Client) (address : Codes) (line : Int) :
    seen (requestLine protocol client address line) = told protocol address (Traced.emit (.goTo line)) := by
  rw [told_emit rfl]
  show seen (toldLine protocol line >>= fun _ => Traced.emit (.showLine address line) >>= fun _ => _) =
    toldLine protocol line >>= fun _ => Traced.emit (.showLine address line)
  rw [seen_bind, seen_toldLine]
  congr 1
  funext _
  cases client.showFailure <;> rfl

/-- The rest of a command for a client, once the edit was asked for. -/
def followed (protocol : Protocol) (client : Client) (s : Settings) (address : Codes) (i : Insertion) (applied : Bool) :
    Step Bool :=
  if applied then
    s.redirect.mapTrace .notice >>= fun v =>
      if v.isTrue then requestLine protocol client address i.redirectLine >>= fun _ => pure true else pure true
  else pure false

theorem executeIn_eq (client : Client) (s : Settings) (d : Document) (address : Codes) (kind : AccessorKind) :
    executeIn protocol client s d address kind =
      (Command.prepare s d kind).mapTrace (Event.ofCommand address) >>= fun r =>
        r.elim (pure false) fun i => requestEdit protocol client address i >>= followed protocol client s address i := by
  unfold executeIn
  congr 1
  funext r
  cases r with
  | none => rfl
  | some i =>
    dsimp only [Option.elim_some]
    congr 1

/-- The reply of the client, as what it comes to. -/
def answered (client : Client) (address : Codes) : Step Bool :=
  match client.applyEdit with
  | .error t => tell (Command.generationError t) >>= fun _ => pure false
  | .ok answer =>
    if answer.applied then pure true
    else
      let reason := (answer.reason.filter fun t => !t.isEmpty).getD Command.rejected
      note Log.Level.warning
          (Text.codes "Edit rejected for ".toList ++ address ++ Text.codes (": ".toList ++ reason)) >>= fun _ =>
        tell (Command.generationError reason) >>= fun _ => pure false

theorem requestEdit_eq (client : Client) (address : Codes) (i : Insertion) :
    requestEdit protocol client address i = relayed protocol address (.insert i) >>= fun _ => answered client address := by
  unfold requestEdit relayed answered
  exact (Traced.bind_assoc _ _ _).symm

theorem seen_redirect (address : Codes) (s : Settings) :
    seen (s.redirect.mapTrace .notice) = told protocol address (Command.quietly s.redirect) := by
  have hsame : (s.redirect.mapTrace .notice : Step Value) =
      (Command.quietly s.redirect).mapTrace (Event.ofCommand address) := by
    unfold Command.quietly Traced.mapTrace
    dsimp only
    rw [List.map_map]
    rfl
  rw [hsame, told_messages (Command.only_quietly s.redirect)]

theorem seen_followed (client : Client) (s : Settings) (address : Codes) (i : Insertion) :
    seen (followed protocol client s address i true) = told protocol address (Command.redirected s i) := by
  unfold followed Command.redirected
  rw [if_pos rfl, seen_bind, told_bind, seen_redirect address]
  congr 1
  funext v
  split
  · rw [seen_bind, told_bind, seen_requestLine]
    rfl
  · rfl

/-- What comes of a reply, for a client and for the command. -/
theorem seen_answered (client : Client) (s : Settings) (address : Codes) (i : Insertion) :
    seen (answered client address >>= followed protocol client s address i) =
      told protocol address (Command.settled s i client.reply) := by
  have hfailed : ∀ reason : Text,
      seen (tell (Command.generationError reason) >>= fun _ => (pure false : Step Bool)) =
        told protocol address (Command.reportFailure reason) := fun _ => rfl
  unfold answered Client.reply
  cases client.applyEdit with
  | error t => exact hfailed t
  | ok answer =>
    dsimp only
    cases answer.applied with
    | true => exact seen_followed client s address i
    | false =>
      rw [if_neg Bool.false_ne_true, if_neg Bool.false_ne_true]
      cases answer.reason.filter fun t => !t.isEmpty with
      | none => exact hfailed Command.rejected
      | some reason => exact hfailed reason

/-! ## The whole command -/

theorem seen_executeIn (client : Client) (s : Settings) {d e : Document} (hlines : AlikeLines d.lines e.lines)
    (hs : d.selections = e.selections) (address : Codes) (kind : AccessorKind) :
    seen (executeIn protocol client s d address kind) =
      told protocol address (Command.runIn s e kind fun _ => client.reply) := by
  rw [executeIn_eq, Command.runIn_eq, seen_bind, told_bind, prepare_alike hlines hs,
    told_messages (Command.prepare_only s e kind)]
  congr 1
  funext r
  cases r with
  | none => rfl
  | some i =>
    dsimp only [Option.elim_some]
    rw [requestEdit_eq, Traced.bind_assoc, seen_bind, told_bind, told_emit rfl]
    have hedit : seen (relayed protocol address (.insert i)) = relayed protocol address (.insert i) := by
      show seen (toldLine protocol i.line >>= fun _ => _) = _
      rw [seen_bind, seen_toldLine]
      rfl
    rw [hedit]
    congr 1
    funext _
    exact seen_answered client s address i

/-- The settings that a client answers, or else the defaults. -/
def Client.settings (client : Client) : Settings :=
  match client.configuration with
  | .ok answer => settingsOfAnswer answer
  | .error _ => Settings.defaults

theorem seen_fetchSettings (client : Client) (address : Codes) :
    seen (fetchSettings client address) = pure client.settings := by
  unfold fetchSettings Client.settings
  cases client.configuration <;> rfl

theorem fetchSettings_ok (client : Client) (address : Codes) :
    ∃ s, (fetchSettings client address).outcome = .ok s ∧ seen (fetchSettings client address) = pure s :=
  ⟨client.settings, congrArg Traced.outcome (seen_fetchSettings client address), seen_fetchSettings client address⟩

section Execute

variable (hprotocol : protocol.Documented) (client : Client) {uri : Codes} {selections : List Int} {args : List Value}
  (hargs : Arguments.ofList args = .ok ⟨.str uri, selections⟩)
include hprotocol hargs

theorem execute_eq (d : OpenDocument) (kind : AccessorKind) :
    execute protocol client d kind args = fetchSettings client uri >>= fun s =>
      if (d.document uri selections).languageId = Command.languageId then
        executeIn protocol client s (d.document uri selections) uri kind
      else tell Command.notApplicable >>= fun _ => pure false := by
  have hscope : protocol.scope (.str uri) = .ok uri := (hprotocol.scope _ _).2 rfl
  unfold execute
  rw [hargs]
  dsimp only
  unfold toAddress
  rw [hscope]
  rfl

/-- The command on the document of the same text, with the settings that were answered. -/
theorem seen_execute (text : Text) (named : Option Text) (kind : AccessorKind) {s : Settings}
    (hs : seen (fetchSettings client uri) = pure s) :
    seen (execute protocol client ⟨text, named⟩ kind args) =
      told protocol uri (Command.run s (Document.ofText text selections (languageOf named uri) (some uri)) kind
        fun _ => client.reply) := by
  rw [execute_eq hprotocol client hargs, seen_bind, hs, Traced.pure_bind]
  show seen (if languageOf named uri = Command.languageId then _ else _) =
    told protocol _ (if languageOf named uri = Command.languageId then _ else _)
  by_cases hlanguage : languageOf named uri = Command.languageId
  · rw [if_pos hlanguage, if_pos hlanguage]
    have hlines : AlikeLines (OpenDocument.document ⟨text, named⟩ uri selections).lines
        (Document.ofText text selections (languageOf named uri) (some uri)).lines :=
      alikeLines_kept text
    exact seen_executeIn client s hlines rfl uri kind
  · rw [if_neg hlanguage, if_neg hlanguage]
    rfl

end Execute

/-- Nothing is lost on the way if all lines can be told. -/
theorem told_tellable (hprotocol : protocol.Documented) {address : Codes} {x : Command.Step α}
    (h : ∀ e ∈ x.trace, Tellable e) :
    told protocol address x = (x.keep Accessors.Event.isSeen).mapTrace (Event.ofCommand address) := by
  apply relay_taken
  intro e he
  exact hprotocol.takes_iff.2 (h e (List.mem_filter.1 he).1)

/-- With the settings of the client's answer, a command for a client is seen as the command
    on the document of the same text is told, whatever lines it names; and event by event,
    if it names no line that a client cannot be told. -/
theorem execute_refines {protocol : Protocol} (hprotocol : protocol.Documented) (client : Client) (text : Text)
    (named : Option Text) (kind : AccessorKind) {args : List Value} {uri : Codes} {selections : List Int}
    (hargs : Arguments.ofList args = .ok ⟨.str uri, selections⟩) :
    ∃ s, (fetchSettings client uri).outcome = .ok s ∧
      let served := execute protocol client ⟨text, named⟩ kind args
      let run := Command.run s (Document.ofText text selections (languageOf named uri) (some uri)) kind
        fun _ => client.reply
      seen served = told protocol uri run ∧
        ((∀ e ∈ run.trace, Tellable e) →
          served.trace.filter Event.isSeen = (run.trace.filter Accessors.Event.isSeen).map (Event.ofCommand uri) ∧
            served.outcome = run.outcome) := by
  obtain ⟨s, hs, hseen⟩ := fetchSettings_ok client uri
  refine ⟨s, hs, ?_⟩
  intro served run
  have hboth : seen served = told protocol uri run := seen_execute hprotocol client hargs text named kind hseen
  refine ⟨hboth, ?_⟩
  intro htellable
  rw [told_tellable hprotocol htellable] at hboth
  exact ⟨congrArg Traced.trace hboth, congrArg Traced.outcome hboth⟩

/-- The protocol as it is documented. What its refusals say is left open. -/
def sampleProtocol : Protocol where
  position line := if 0 ≤ line ∧ line ≤ maxLine then .ok () else .error []
  scope v := match v with
    | .str address => .ok address
    | _ => .error []

theorem documented_sample : sampleProtocol.Documented := by
  refine ⟨fun line => ?_, fun v address => ?_⟩
  · show (if _ then _ else _) = _ ↔ _
    split <;> simp_all
  · cases v <;> simp [sampleProtocol]

/-- A client that applies every edit. -/
def sampleClient : Client := ⟨.ok [.object []], .ok ⟨true, none⟩, none⟩

def sampleAddress : Codes := key "file:///a.php"

def sampleArguments : List Value := [.object [(key "uri", .str sampleAddress), (key "selections", .list [.int 0])]]

theorem execute_refines_sample : ∃ s, (fetchSettings sampleClient sampleAddress).outcome = .ok s ∧
    Arguments.ofList sampleArguments = .ok ⟨.str sampleAddress, [0]⟩ ∧
    seen (execute sampleProtocol sampleClient ⟨sample, none⟩ .getter sampleArguments) =
      told sampleProtocol sampleAddress (Command.run s (Document.ofText sample [0] (languageOf none sampleAddress)
        (some sampleAddress)) .getter fun _ => sampleClient.reply) := by
  have hargs : Arguments.ofList sampleArguments = .ok ⟨.str sampleAddress, [0]⟩ := by rfl
  obtain ⟨s, hs, hseen, -⟩ := execute_refines documented_sample sampleClient sample none .getter hargs
  exact ⟨s, hs, hargs, hseen⟩

end Accessors.Server
