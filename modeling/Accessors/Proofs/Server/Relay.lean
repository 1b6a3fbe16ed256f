/-
  Accessors.Proofs.Server.Relay — a command told to a client.

  What a user sees of a command are its messages, its insertion, and where the cursor
  goes; notes in the log and the request for the settings are not seen (`isSeen`). A
  client is told the same (`relay`): an insertion as an edit, and a cursor as a line to be
  shown. A line is told as a position of the protocol: one that it does not take is not
  told, and the command stops there (`relayed`).

  - `relay_bind`: one step is told after the other;
  - `relay_messages`: messages go through as they are;
  - `relay_taken`: so does all else, if all its lines are taken;
  - `relay_eq_ok`: if one of them is not, the command does not come to its end.

  What the protocol takes is known from its documents (`Protocol.Documented`).
-/
import Accessors.Proofs.Editor.Command
import Accessors.Server.Session

namespace Accessors

namespace Server

/-- Whether the user of a client sees the event. -/
def Event.isSeen : Event → Bool
  | .notice _ => false
  | .configuration _ _ => false
  | _ => true

/-! ## The types of the protocol -/

/-- The greatest line that there is a position for. -/
def maxLine : Int := 2147483647

/-- A position is on a line that an unsigned number of the protocol can count, and an
    address is a string. -/
structure Protocol.Documented (protocol : Protocol) : Prop where
  position : ∀ line, protocol.position line = .ok () ↔ 0 ≤ line ∧ line ≤ maxLine
  scope : ∀ v address, protocol.scope v = .ok address ↔ v = .str address

/-- A client can be told the line that the event names, if it names one. -/
def Tellable : Accessors.Event → Prop
  | .insert i => 0 ≤ i.line ∧ i.line ≤ maxLine
  | .goTo line => 0 ≤ line ∧ line ≤ maxLine
  | _ => True

/-- The protocol has a position for the line that the event names, if it names one. -/
def Protocol.Takes (protocol : Protocol) : Accessors.Event → Prop
  | .insert i => protocol.position i.line = .ok ()
  | .goTo line => protocol.position line = .ok ()
  | _ => True

theorem Protocol.Documented.takes_iff {protocol : Protocol} (h : protocol.Documented) {e : Accessors.Event} :
    protocol.Takes e ↔ Tellable e := by
  cases e with
  | notice _ | error _ | info _ => exact Iff.rfl
  | insert i => exact h.position i.line
  | goTo line => exact h.position line

/-! ## Telling -/

variable {α β : Type} {protocol : Protocol}

/-- An event as it is told to a client. -/
def relayed (protocol : Protocol) (address : Codes) : Accessors.Event → Step Unit
  | .insert i => toldLine protocol i.line >>= fun _ => Traced.emit (.edit editLabel address i)
  | .goTo line => toldLine protocol line >>= fun _ => Traced.emit (.showLine address line)
  | e => Traced.emit (.ofCommand address e)

def relay (protocol : Protocol) (address : Codes) (x : Command.Step α) : Step α :=
  x.trace.foldr (fun e rest => relayed protocol address e >>= fun _ => rest) (Traced.ofExcept x.outcome)

theorem relay_cons (address : Codes) (e : Accessors.Event) (events : List Accessors.Event) (outcome : Except Fault α) :
    relay protocol address ⟨e :: events, outcome⟩ =
      relayed protocol address e >>= fun _ => relay protocol address ⟨events, outcome⟩ := rfl

theorem relay_bind (address : Codes) (x : Command.Step α) (f : α → Command.Step β) :
    relay protocol address (x >>= f) = relay protocol address x >>= fun a => relay protocol address (f a) := by
  obtain ⟨events, outcome⟩ := x
  induction events with
  | nil =>
    cases outcome with
    | ok a => rfl
    | error fault => rfl
  | cons e events ih =>
    have hbind : (⟨e :: events, outcome⟩ : Command.Step α) >>= f =
        ⟨e :: (⟨events, outcome⟩ >>= f : Command.Step β).trace, (⟨events, outcome⟩ >>= f : Command.Step β).outcome⟩ := by
      cases outcome with
      | ok a => rfl
      | error fault => rfl
    rw [hbind, relay_cons, relay_cons, Traced.bind_assoc, ← ih]

theorem relay_emit (address : Codes) (e : Accessors.Event) :
    relay protocol address (Traced.emit e) = relayed protocol address e :=
  Traced.bind_pure_unit _

/-! ## What goes through -/

theorem isSeen_ofCommand (address : Codes) (e : Accessors.Event) :
    (Event.ofCommand address e).isSeen = e.isSeen := by
  cases e <;> rfl

theorem toldLine_eq {line : Int} (h : protocol.position line = .ok ()) : toldLine protocol line = pure () := by
  unfold toldLine
  rw [h]

theorem relayed_taken {address : Codes} {e : Accessors.Event} (h : protocol.Takes e) :
    relayed protocol address e = Traced.emit (.ofCommand address e) := by
  cases e with
  | notice n => rfl
  | error t => rfl
  | info t => rfl
  | insert i =>
    show (toldLine protocol i.line >>= fun _ => Traced.emit (.edit editLabel address i)) = _
    rw [toldLine_eq h]
    rfl
  | goTo line =>
    show (toldLine protocol line >>= fun _ => Traced.emit (.showLine address line)) = _
    rw [toldLine_eq h]
    rfl

theorem relay_taken {address : Codes} {x : Command.Step α} (h : ∀ e ∈ x.trace, protocol.Takes e) :
    relay protocol address x = x.mapTrace (Event.ofCommand address) := by
  obtain ⟨events, outcome⟩ := x
  induction events with
  | nil => rfl
  | cons e events ih =>
    have hrest := ih fun m hm => h m (List.mem_cons_of_mem _ hm)
    rw [relay_cons, relayed_taken (h e List.mem_cons_self), hrest]
    rfl

theorem relayed_eq_ok {address : Codes} {e : Accessors.Event} :
    (relayed protocol address e).outcome = .ok () ↔ protocol.Takes e := by
  constructor
  · intro h
    have htold : ∀ {line : Int} {event : Event}, (toldLine protocol line >>= fun _ => Traced.emit event).outcome = .ok () →
        protocol.position line = .ok () := by
      intro line event h
      obtain ⟨_, hline, -⟩ := Traced.bind_eq_ok.1 h
      unfold toldLine at hline
      split at hline
      · assumption
      · cases hline
    cases e with
    | notice n | error t | info t => exact trivial
    | insert i => exact htold h
    | goTo line => exact htold h
  · intro h
    rw [relayed_taken h]
    rfl

/-- What comes of a step comes of it for a client, if all its lines can be told. -/
theorem relay_eq_ok {address : Codes} {x : Command.Step α} {a : α} :
    (relay protocol address x).outcome = .ok a ↔ (∀ e ∈ x.trace, protocol.Takes e) ∧ x.outcome = .ok a := by
  constructor
  · intro h
    obtain ⟨events, outcome⟩ := x
    induction events with
    | nil => exact ⟨by simp, h⟩
    | cons e events ih =>
      rw [relay_cons] at h
      obtain ⟨_, he, hrest⟩ := Traced.bind_eq_ok.1 h
      obtain ⟨htold, ho⟩ := ih hrest
      exact ⟨List.forall_mem_cons.2 ⟨relayed_eq_ok.1 he, htold⟩, ho⟩
  · rintro ⟨htold, ho⟩
    rw [relay_taken htold]
    exact ho

theorem takes_of_isMessage {e : Accessors.Event} (h : e.IsMessage) : protocol.Takes e := by
  rcases h with ⟨n, rfl⟩ | ⟨t, rfl⟩
  · exact trivial
  · exact trivial

theorem keep_mapTrace (address : Codes) (x : Command.Step α) :
    (x.mapTrace (Event.ofCommand address)).keep Event.isSeen =
      (x.keep Accessors.Event.isSeen).mapTrace (Event.ofCommand address) := by
  obtain ⟨events, outcome⟩ := x
  unfold Traced.keep Traced.mapTrace
  dsimp only
  rw [List.filter_map]
  have hseen : Event.isSeen ∘ Event.ofCommand address = Accessors.Event.isSeen :=
    funext fun e => isSeen_ofCommand address e
  rw [hseen]

/-- Messages are told as they are. -/
theorem relay_messages {address : Codes} {x : Command.Step α} (h : Traced.Only Accessors.Event.IsMessage x) :
    relay protocol address (x.keep Accessors.Event.isSeen) =
      (x.mapTrace (Event.ofCommand address)).keep Event.isSeen := by
  rw [keep_mapTrace]
  apply relay_taken
  intro e he
  exact takes_of_isMessage (h e (List.mem_filter.1 he).1)

end Server

end Accessors
