import JuttaProto.CommandPayload
import JuttaProto.Transducer

namespace JuttaProto
open Run
set_option autoImplicit true

/-- The link, which is still up after a disconnect until the device drops it. -/
inductive Phase
  | down
  | inUse
  | lingering
  deriving DecidableEq, Repr

structure Conversation where
  phase : Phase := .down
  key : UInt8 := 0
  deriving DecidableEq, Repr

/-- A message as it is before it is encoded, and whether the device gets it. -/
structure Message where
  key : UInt8
  characteristic : Uuid
  text : Bytes
  delivered : Bool
  deriving DecidableEq, Repr

def Message.frame (m : Message) : WriteCall :=
  ⟨m.characteristic, encDecBytes m.text m.key, m.delivered⟩

/-- What a call asks for: the characteristic, the command, and whether the key also replaces the
last byte. -/
def Call.command : Call → Option (Uuid × Bytes × Bool)
  | .request_coffee =>
    (from_hex_string (cstr "00030004280000020001000000000000")).toOption.map
      (START_PRODUCT_CHARACTERISTIC_UUID, ·, false)
  | .request_coffee_product product =>
    (product.to_bt_command >>= from_hex_string).toOption.map
      (START_PRODUCT_CHARACTERISTIC_UUID, ·, true)
  | .request_statistics _ mode =>
    some (STATISTICS_COMMAND_CHARACTERISTIC_UUID, build_stats_cmd mode, true)
  | c => c.payload

namespace Conversation

def opens (s : Conversation) (g : ConnectReplies) : Prop := s.phase = .down ∧ LinkOpens g

instance (s : Conversation) (g : ConnectReplies) : Decidable (s.opens g) :=
  inferInstanceAs (Decidable (_ ∧ _))

def opened (s : Conversation) (g : ConnectReplies) : Conversation :=
  ⟨.inUse, (g.manData.getD []).headD s.key⟩

def modeMessage (key : UInt8) (command : Bytes) (delivered : Bool) : Message :=
  ⟨key, P_MODE_CHARACTERISTIC_UUID, override key false command, delivered⟩

def next (s : Conversation) : Action → Conversation
  | .call (.connect g) _ => if s.opens g then s.opened g else s
  | .call .disconnect _ => if s.phase = .inUse then { s with phase := .lingering } else s
  | .linkLost _ => { s with phase := .down }
  | _ => s

def ordered (s : Conversation) (written : Int) : Option (Uuid × Bytes × Bool) → List Message
  | some (uuid, command, overrideKey) =>
    [⟨s.key, uuid, override s.key overrideKey command,
      s.phase ≠ .down && written == GATTLIB_SUCCESS⟩]
  | none => []

/-- A connect tells the device to stay, a disconnect takes leave of it, also when the device is
gone, and the other calls send their commands. -/
def utters (s : Conversation) : Action → List Message
  | .call (.connect g) written =>
    if s.opens g then [modeMessage (s.opened g).key [0x00, 0x7F, 0x80] (written == GATTLIB_SUCCESS)]
    else []
  | .call .disconnect written =>
    if s.phase = .inUse then
      [modeMessage s.key [0x00, 0x7F, 0x81] (written == GATTLIB_SUCCESS)]
    else []
  | .linkLost _ => if s.phase = .inUse then [modeMessage s.key [0x00, 0x7F, 0x81] false] else []
  | .call c written => s.ordered written c.command
  | .notification _ => []

def announces (s : Conversation) : Action → List CoffeeMakerState
  | .call (.connect g) _ =>
    if s.phase = .down then [.CONNECTING, if LinkOpens g then .CONNECTED else .DISCONNECTED]
    else []
  | .call .disconnect _ | .linkLost _ =>
    if s.phase = .inUse then [.DISCONNECTING, .DISCONNECTED] else []
  | _ => []

def spoken : Transducer Conversation Action Message := ⟨next, utters⟩

def announced : Transducer Conversation Action CoffeeMakerState := ⟨next, announces⟩

def state (s : Conversation) : CoffeeMakerState :=
  if s.phase = .inUse then .CONNECTED else .DISCONNECTED

end Conversation

def CoffeeMakerState.Follows : CoffeeMakerState → CoffeeMakerState → Prop
  | .DISCONNECTED, s => s = .CONNECTING
  | .CONNECTING, s => s = .CONNECTED ∨ s = .DISCONNECTED
  | .CONNECTED, s => s = .DISCONNECTING
  | .DISCONNECTING, s => s = .DISCONNECTED

def World.conversation (w : World) : Conversation where
  phase :=
    if w.maker.state = .CONNECTED then .inUse
    else if w.maker.bleDevice.connected then .lingering
    else .down
  key := w.key

def Event.announcedState : Event → Option CoffeeMakerState
  | .stateChanged state => some state
  | _ => none

def World.announced (w : World) : List CoffeeMakerState :=
  w.events.filterMap fun i => i.event.announcedState

namespace Conversation

theorem announces_walk (s : Conversation) (a : Action) :
    Walk CoffeeMakerState.Follows s.state (s.announces a) (s.next a).state := by
  obtain ⟨phase, key⟩ := s
  have hclose : Walk CoffeeMakerState.Follows .CONNECTED [.DISCONNECTING, .DISCONNECTED]
      .DISCONNECTED :=
    walk_cons.2 ⟨rfl, walk_cons.2 ⟨rfl, .nil _ _⟩⟩
  cases a with
  | call c written =>
    cases c with
    | connect g =>
      by_cases hg : LinkOpens g
      · cases phase with
        | down =>
          simp only [announces, next, opens, opened, state, hg, and_self, ↓reduceIte]
          exact walk_cons.2 ⟨rfl, walk_cons.2 ⟨.inl rfl, .nil _ _⟩⟩
        | inUse | lingering => exact .nil _ _
      · cases phase with
        | down =>
          simp only [announces, next, opens, state, hg, and_false, ↓reduceIte]
          exact walk_cons.2 ⟨rfl, walk_cons.2 ⟨.inr rfl, .nil _ _⟩⟩
        | inUse | lingering =>
          simp only [announces, next, opens, hg, and_false, ↓reduceIte, reduceCtorEq]
          exact .nil _ _
    | disconnect =>
      cases phase with
      | inUse => exact hclose
      | down | lingering => exact .nil _ _
    | _ => exact .nil _ _
  | notification n => exact .nil _ _
  | linkLost written =>
    cases phase with
    | inUse => exact hclose
    | down | lingering => exact .nil _ _

end Conversation

end JuttaProto
