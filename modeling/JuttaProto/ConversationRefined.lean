import JuttaProto.Conversation

namespace JuttaProto
open Run
set_option autoImplicit true

theorem announced_emit (event : Event) (w : World) :
    (emit event w).announced = w.announced ++ event.announcedState.toList := by
  rw [World.announced, emit, List.filterMap_append]
  cases he : event.announcedState with
  | none => simp only [List.filterMap_cons, he, List.filterMap_nil, Option.toList_none]; rfl
  | some state => simp only [List.filterMap_cons, he, List.filterMap_nil, Option.toList_some]; rfl

theorem announced_set_state (h : state ≠ w.maker.state) :
    (set_state state w).announced = w.announced ++ [state] := by
  rw [set_state, if_pos h, announced_emit]
  rfl

theorem Event.isStatistics.announcedState {event : Event} (h : event.isStatistics = true) :
    event.announcedState = none := by
  cases event with
  | stateChanged state => cases h
  | _ => rfl

/-- Nothing has been said or announced, and the conversation is the same. -/
structure Silent (w w' : World) : Prop where
  link : w'.link = w.link
  key : w'.key = w.key
  wire : w'.wire = w.wire
  announced : w'.announced = w.announced

theorem Silent.refl (w : World) : Silent w w := ⟨rfl, rfl, rfl, rfl⟩

theorem Silent.trans (h : Silent w w') (h' : Silent w' w'') : Silent w w'' :=
  ⟨h'.link.trans h.link, h'.key.trans h.key, h'.wire.trans h.wire,
    h'.announced.trans h.announced⟩

theorem on_characteristic_read_announced (h : on_characteristic_read data uuid w = .ok w') :
    w'.announced = w.announced := by
  have hemit {event : Event} (he : event.announcedState = none) (maker : CoffeeMaker) :
      (emit event { w with maker }).announced = w.announced := by
    rw [announced_emit, he]
    exact List.append_nil w.announced
  rcases on_characteristic_read_cases h with
    he | he | ⟨joe, payload, _, _, he⟩ | ⟨_, he⟩ | ⟨_, _, event, joe', _, hs, _, he⟩
  · rw [he]
  · rw [he, updateAbout]
    split
    · exact hemit rfl _
    · rfl
  · rw [he, updateAlerts]
    split
    · exact hemit rfl _
    · rfl
  · rw [he]
    rfl
  · rw [he, updateJoe]
    exact hemit (Event.isStatistics.announcedState hs) _

theorem on_characteristic_read_silent (h : on_characteristic_read data uuid w = .ok w') :
    Silent w w' := by
  obtain ⟨hl, hw, hk⟩ := on_characteristic_read_rest h
  exact ⟨hl, hk, hw, on_characteristic_read_announced h⟩

theorem read_characteristic_silent (h : BLEDevice.read_characteristic reply uuid w = .ok w') :
    Silent w w' := by
  rcases read_characteristic_cases h with he | ⟨data, h⟩
  · rw [he]
    exact .refl w
  · exact on_characteristic_read_silent h

theorem notifications_silent (h : run on_notification w notifications = .ok w') : Silent w w' :=
  run_invariant (Silent w) (fun _ _ _ hv hs => hv.trans (on_characteristic_read_silent hs))
    (.refl w) h

theorem request_statistics_silent
    (h : request_statistics replies mode written w = .ok w') :
    Silent (BLEDevice.write STATISTICS_COMMAND_CHARACTERISTIC_UUID
      (encDecBytes (override w.key true (build_stats_cmd mode)) w.key) written w) w' := by
  rw [request_statistics_eq] at h
  have hp : Silent (BLEDevice.write STATISTICS_COMMAND_CHARACTERISTIC_UUID
      (encDecBytes (override w.key true (build_stats_cmd mode)) w.key) written w)
      (polled replies mode written w) := ⟨rfl, rfl, rfl, rfl⟩
  exact hp.trans (read_characteristic_silent h)

theorem read_man_data_key (h : read_man_data data = .ok manData) :
    data.head? = some manData.key := by
  obtain ⟨key, hk, h⟩ := bind_ok h
  obtain ⟨_, _, h⟩ := bind_ok h
  obtain ⟨_, _, h⟩ := bind_ok h
  obtain ⟨_, _, h⟩ := bind_ok h
  obtain ⟨_, _, h⟩ := bind_ok h
  obtain ⟨_, _, h⟩ := bind_ok h
  obtain ⟨_, _, h⟩ := bind_ok h
  obtain ⟨_, _, h⟩ := bind_ok h
  obtain ⟨_, _, h⟩ := bind_ok h
  obtain ⟨_, _, h⟩ := bind_ok h
  cases h
  cases data with
  | nil => cases hk
  | cons b data =>
    cases hk
    rfl

theorem parse_man_data_speech (h : parse_man_data data doc w = .ok w') :
    data.head? = some w'.key ∧ w'.wire = w.wire ∧ w'.announced = w.announced := by
  obtain ⟨manData, hm, h⟩ := bind_ok h
  simp only at h
  split at h
  · cases h
  · obtain ⟨joe, _, h⟩ := bind_ok h
    cases h
    refine ⟨read_man_data_key hm, rfl, ?_⟩
    rw [announced_emit]
    refine (List.append_nil _).trans ?_
    change (emit _ _).announced = _
    rw [announced_emit]
    exact List.append_nil w.announced

theorem head?_override (hd : data ≠ []) (key : UInt8) (overrideKey : Bool) :
    (override key overrideKey data).head? = some key := by
  rw [List.head?_eq_getElem?]
  exact override_first hd key overrideKey

/-- A frame begins with the key, since a write of no data fails. -/
theorem write_ok (h : write uuid data true overrideKey written w = .ok w') :
    (override w.key overrideKey data).head? = some w.key ∧
      w' = BLEDevice.write uuid (encDecBytes (override w.key overrideKey data) w.key) written
        w := by
  by_cases hd : data = []
  · rw [hd, write, if_pos rfl, if_pos rfl] at h
    cases h
  · rw [write_ne_nil hd] at h
    cases h
    exact ⟨head?_override hd w.key overrideKey, rfl⟩

/-- What has been said and announced between two states. Every message begins with its key. -/
structure Speaks (ms : List Message) (states : List CoffeeMakerState) (w w' : World) : Prop where
  wire : w'.wire = w.wire ++ ms.map Message.frame
  announced : w'.announced = w.announced ++ states
  keyed : ∀ m ∈ ms, m.text.head? = some m.key

theorem speaks_nothing {w w' : World} (hw : w'.wire = w.wire)
    (ha : w'.announced = w.announced ++ states) : Speaks [] states w w' :=
  ⟨hw.trans (List.append_nil w.wire).symm, ha, fun _ hm => absurd hm List.not_mem_nil⟩

theorem Silent.speaks (h : Silent w w') : Speaks [] [] w w' :=
  speaks_nothing h.wire (h.announced.trans (List.append_nil _).symm)

theorem Speaks.trans (h : Speaks ms states w w') (h' : Speaks ms' states' w' w'') :
    Speaks (ms ++ ms') (states ++ states') w w'' := by
  constructor
  · rw [h'.wire, h.wire, List.map_append, List.append_assoc]
  · rw [h'.announced, h.announced, List.append_assoc]
  · intro m hm
    rcases List.mem_append.1 hm with hm | hm
    · exact h.keyed m hm
    · exact h'.keyed m hm

theorem speaks_set_state {s : CoffeeMakerState} (h : s ≠ w.maker.state) :
    Speaks [] [s] w (set_state s w) := speaks_nothing (set_state_wire s w) (announced_set_state h)

theorem speaks_write {w : World} (uuid : Uuid) (text : Bytes) (ht : text.head? = some w.key)
    (written : Int) :
    Speaks [⟨w.key, uuid, text, w.maker.bleDevice.connected && written == GATTLIB_SUCCESS⟩] [] w
      (BLEDevice.write uuid (encDecBytes text w.key) written w) :=
  ⟨rfl, (List.append_nil w.announced).symm, fun m hm => by rw [List.mem_singleton.1 hm, ht]⟩

theorem speaks_join (h : join w = .ok w') : Speaks [] [] w w' ∧ w'.key = w.key := by
  unfold join at h
  split at h
  · cases h
    exact ⟨speaks_nothing rfl (List.append_nil w.announced).symm, rfl⟩
  · cases h

theorem speaks_disconnect (ha : w.maker.state.active = true)
    (hh : w.maker.heartbeatThread = true) (h : disconnect written w = .ok w') :
    w'.maker = { w.maker with state := .DISCONNECTED, heartbeatThread := false } ∧
    Speaks [Conversation.modeMessage w.key [0x00, 0x7F, 0x81]
      (w.maker.bleDevice.connected && written == GATTLIB_SUCCESS)]
      [.DISCONNECTING, .DISCONNECTED] w w' ∧ w'.key = w.key := by
  have hne : CoffeeMakerState.DISCONNECTING ≠ w.maker.state := by
    intro hs
    rw [← hs] at ha
    cases ha
  obtain ⟨w₀, h₀, hm⟩ := disconnect_ok written ha hh
  rw [h] at h₀
  cases h₀
  refine ⟨hm, ?_⟩
  rw [disconnect, if_pos ha] at h
  obtain ⟨w₁, h₁, h⟩ := bind_ok h
  obtain ⟨w₂, h₂, h⟩ := bind_ok h
  cases h
  have hclosing := speaks_set_state (w := w) (s := .DISCONNECTING) hne
  obtain ⟨_, hw₁⟩ := write_ok h₁
  rw [set_state_key] at hw₁
  have hsent := speaks_write (w := set_state .DISCONNECTING w) P_MODE_CHARACTERISTIC_UUID
    (override w.key false [0x00, 0x7F, 0x81]) (by rw [set_state_key]; rfl) written
  rw [set_state_key, set_state_bleDevice] at hsent
  rw [← hw₁] at hsent
  obtain ⟨hjoined, hkey⟩ := speaks_join h₂
  have hstate : w₂.maker.state = .DISCONNECTING := by
    unfold join at h₂
    split at h₂
    · cases h₂
      rw [hw₁]
      exact congrArg CoffeeMaker.state (set_state_maker .DISCONNECTING w)
    · cases h₂
  have hclosed := speaks_set_state (w := w₂) (s := .DISCONNECTED) (by rw [hstate]; decide)
  refine ⟨hclosing.trans (hsent.trans (hjoined.trans hclosed)), ?_⟩
  rw [set_state_key, hkey, hw₁]
  exact set_state_key .DISCONNECTING w

theorem conversation_congr {w w' : World} (hl : w'.link = w.link) (hk : w'.key = w.key) :
    w'.conversation = w.conversation := by
  simp only [World.link, Prod.mk.injEq] at hl
  obtain ⟨hs, hd, _, _⟩ := hl
  rw [World.conversation, World.conversation, hs, hd, hk]

theorem conversation_connected {w : World} (hs : w.maker.state = .CONNECTED) :
    w.conversation = ⟨.inUse, w.key⟩ := by
  rw [World.conversation, if_pos hs]

theorem conversation_down {w : World} (hs : w.maker.state ≠ .CONNECTED)
    (hc : w.maker.bleDevice.connected = false) : w.conversation = ⟨.down, w.key⟩ := by
  rw [World.conversation, if_neg hs, hc, if_neg Bool.false_ne_true]

theorem conversation_lingering {w : World} (hs : w.maker.state ≠ .CONNECTED)
    (hc : w.maker.bleDevice.connected = true) : w.conversation = ⟨.lingering, w.key⟩ := by
  rw [World.conversation, if_neg hs, if_pos hc]

theorem LinkInv.conversation_idle (h : LinkInv w) (hi : w.maker.bleDevice.idle) :
    w.conversation = ⟨.down, w.key⟩ := by
  apply conversation_down
  · intro hs
    have hc := h.connected hs
    rw [hi.2] at hc
    cases hc
  · exact hi.2

theorem LinkInv.delivers (h : LinkInv w) (written : Int) :
    (w.maker.bleDevice.connected && written == GATTLIB_SUCCESS) =
      (w.conversation.phase ≠ .down && written == GATTLIB_SUCCESS) := by
  by_cases hs : w.maker.state = .CONNECTED
  · rw [h.connected hs, conversation_connected hs]
    rfl
  · cases hc : w.maker.bleDevice.connected with
    | true =>
      rw [conversation_lingering hs hc]
      rfl
    | false =>
      rw [conversation_down hs hc]
      rfl

theorem speaks_linkOpened {w : World} (h : w.maker.state ≠ .CONNECTING) (g : ConnectReplies) :
    Speaks [] [.CONNECTING] w (linkOpened g w) := by
  have hs := speaks_set_state (Ne.symm h)
  exact ⟨hs.wire, hs.announced, hs.keyed⟩

theorem speaks_on_connected (hm : g.manData.getD [] ≠ [])
    (hc : w.maker.bleDevice.connected = true) (h : on_connected g written w = .ok w') :
    (g.manData.getD []).head? = some w'.key ∧
      Speaks [Conversation.modeMessage w'.key [0x00, 0x7F, 0x80] (written == GATTLIB_SUCCESS)] []
        w w' := by
  rw [on_connected, if_neg hm] at h
  obtain ⟨w₁, h₁, h⟩ := bind_ok h
  obtain ⟨w₂, h₂, h⟩ := bind_ok h
  obtain ⟨w₃, h₃, h⟩ := bind_ok h
  obtain ⟨hkey, hwire, hann⟩ := parse_man_data_speech h₁
  have hl := parse_man_data_link h₁
  simp only [World.link, Prod.mk.injEq] at hl
  obtain ⟨_, hw₂⟩ := write_ok h₂
  have hsent := speaks_write (w := w₁) P_MODE_CHARACTERISTIC_UUID
    (override w₁.key false [0x00, 0x7F, 0x80]) rfl written
  rw [← hw₂, hl.2.1, hc, Bool.true_and] at hsent
  have hparsed : Speaks [] [] w w₁ := speaks_nothing hwire (hann.trans (List.append_nil _).symm)
  have habout := read_characteristic_silent h₃
  have hkey₃ : w₃.key = w₁.key := by
    rw [habout.key, hw₂]
    rfl
  unfold start_heartbeat at h
  split at h
  · cases h
  · cases h
    have hkey' : w₁.key = World.key ⟨{ w₃.maker with heartbeatThread := true }, w₃.wire,
      w₃.events⟩ := hkey₃.symm
    rw [hkey'] at hkey hsent
    refine ⟨hkey, ?_⟩
    have hs := hparsed.trans (hsent.trans habout.speaks)
    exact ⟨hs.wire, hs.announced, hs.keyed⟩

theorem LinkInv.not_connecting (h : LinkInv w) : w.maker.state ≠ .CONNECTING := by
  rcases h.settled with hs | hs
  · rw [hs]
    decide
  · rw [hs]
    decide

theorem LinkInv.converse_connect (h : LinkInv w)
    (hc : JuttaProto.connect g written w = .ok (w', b)) :
    w.conversation.phase = .down ∧ (LinkOpens g → (g.manData.getD []).head? = some w'.key) ∧
    w'.conversation = w.conversation.next (.call (.connect g) written) ∧
      Speaks (w.conversation.utters (.call (.connect g) written))
        (w.conversation.announces (.call (.connect g) written)) w w' := by
  by_cases hi : w.maker.bleDevice.idle
  · have hdown := h.conversation_idle hi
    by_cases hg : LinkOpens g
    · rw [connect_opens hi hg] at hc
      obtain ⟨w₁, h₁, hc⟩ := bind_ok hc
      have hl := linkUp_link h₁
      simp only [World.link, Prod.mk.injEq] at hl
      by_cases hm : g.manData.getD [] = []
      · rw [on_connected_asserts written hm (by rw [hl.1]; rfl)
          (by rw [hl.2.2.1]; exact h.heartbeat_of_not_connected hi.2)] at hc
        cases hc
      · cases h₂ : on_connected g written (linkUp w₁) with
        | error e =>
          rw [h₂] at hc
          cases hc
        | ok w₂ =>
          rw [h₂] at hc
          cases hc
          have hl₂ := on_connected_ok hm h₂
          simp only [World.link, Prod.mk.injEq] at hl₂
          obtain ⟨hkey, hshake⟩ := speaks_on_connected hm (by rw [hl.2.1]) h₂
          have hopen := speaks_linkOpened h.not_connecting g
          have hnotified := (notifications_silent h₁).speaks
          have hup : Speaks [] [] w₁ (linkUp w₁) :=
            speaks_nothing rfl (List.append_nil w₁.announced).symm
          have hdone := speaks_set_state (w := w₂) (s := .CONNECTED)
            (by rw [hl₂.1, hl.1]; decide)
          have hspeaks := hopen.trans (hnotified.trans (hup.trans (hshake.trans hdone)))
          have hheadD : (g.manData.getD []).headD w.key = w₂.key := by
            rw [List.headD_eq_head?_getD, hkey]
            rfl
          have hopens : w.conversation.opens g := ⟨by rw [hdown], hg⟩
          have hopened : w.conversation.opened g = ⟨.inUse, w₂.key⟩ := by
            rw [hdown, Conversation.opened, hheadD]
          refine ⟨hopens.1, fun _ => by rw [set_state_key]; exact hkey, ?_, ?_⟩
          · rw [conversation_connected (by rw [set_state_maker]), set_state_key,
              Conversation.next, if_pos hopens, hopened]
          · rw [Conversation.utters, if_pos hopens, hopened, Conversation.announces,
              if_pos hopens.1, if_pos hg]
            exact hspeaks
    · obtain ⟨n, hn⟩ := connect_fails written hi hg
      rw [hn] at hc
      cases hc
      have hopen := speaks_set_state (Ne.symm h.not_connecting)
      have hstate : ((set_state .CONNECTING w).withDevice ⟨none, n, false⟩).maker.state =
          .CONNECTING := congrArg CoffeeMaker.state (set_state_maker .CONNECTING w)
      have hdone := speaks_set_state (s := .DISCONNECTED)
        (w := (set_state .CONNECTING w).withDevice ⟨none, n, false⟩)
        (by rw [hstate]; decide)
      have hopens : ¬w.conversation.opens g := fun ho => hg ho.2
      refine ⟨by rw [hdown], fun ho => absurd ho hg, ?_, ?_⟩
      · rw [Conversation.next, if_neg hopens, hdown]
        refine (conversation_down ?_ ?_).trans ?_
        · rw [set_state_maker]
          exact CoffeeMakerState.noConfusion
        · rw [set_state_bleDevice]
          rfl
        · rw [set_state_key]
          exact congrArg (Conversation.mk .down) (set_state_key .CONNECTING w)
      · rw [Conversation.utters, if_neg hopens, Conversation.announces, hdown, if_pos rfl,
          if_neg hg]
        have hopen' : Speaks [] [.CONNECTING] w
            ((set_state .CONNECTING w).withDevice ⟨none, n, false⟩) :=
          speaks_nothing (set_state_wire .CONNECTING w) hopen.announced
        exact hopen'.trans hdone
  · obtain ⟨e, he, _⟩ := connect_asserts g written hi
    rw [he] at hc
    cases hc

structure Converses (a : Action) (w w' : World) : Prop where
  next : w'.conversation = w.conversation.next a
  speaks : Speaks (w.conversation.utters a) (w.conversation.announces a) w w'

theorem LinkInv.converse_disconnect (h : LinkInv w)
    (hd : JuttaProto.disconnect written w = .ok w') :
    Converses (.call .disconnect written) w w' := by
  rcases h.settled with hs | hs
  · rw [disconnect_inactive (by rw [hs]; rfl)] at hd
    cases hd
    have hphase : w.conversation.phase ≠ .inUse := by
      intro hp
      cases hc : w.maker.bleDevice.connected with
      | false =>
        rw [conversation_down (by rw [hs]; decide) hc] at hp
        cases hp
      | true =>
        rw [conversation_lingering (by rw [hs]; decide) hc] at hp
        cases hp
    refine ⟨(if_neg hphase).symm, ?_⟩
    rw [Conversation.utters, if_neg hphase, Conversation.announces, if_neg hphase]
    exact (Silent.refl w).speaks
  · obtain ⟨hm, hspeaks, hkey⟩ := speaks_disconnect (by rw [hs]; rfl) (h.heartbeat.2 hs) hd
    rw [h.connected hs, Bool.true_and] at hspeaks
    have hconv := conversation_connected hs
    constructor
    · rw [hconv, Conversation.next, if_pos rfl, ← hkey]
      apply conversation_lingering
      · rw [hm]
        exact CoffeeMakerState.noConfusion
      · rw [hm]
        exact h.connected hs
    · rw [hconv]
      exact hspeaks

/-- When the link is lost, the device does not hear the leave that is taken of it. -/
theorem LinkInv.converse_linkLost (h : LinkInv w)
    (hd : JuttaProto.step w (.linkLost written) = .ok w') :
    Converses (.linkLost written) w w' := by
  change BLEDevice.on_disconnected (on_disconnected written) w = .ok w' at hd
  rw [BLEDevice.on_disconnected] at hd
  cases hc : w.maker.bleDevice.connected with
  | false =>
    rw [hc, if_neg Bool.false_ne_true] at hd
    cases hd
    have hs : w.maker.state ≠ .CONNECTED := by
      intro hs
      rw [h.connected hs] at hc
      cases hc
    constructor
    · rw [conversation_down hs hc]
      rfl
    · rw [conversation_down hs hc]
      exact (Silent.refl w).speaks
  | true =>
    rw [hc, if_pos rfl, JuttaProto.on_disconnected] at hd
    rcases h.settled with hs | hs
    · rw [if_neg (by rw [World.withDevice, hs]; decide)] at hd
      cases hd
      have hne : w.maker.state ≠ .CONNECTED := by
        rw [hs]
        decide
      constructor
      · rw [conversation_lingering hne hc]
        exact conversation_down hne rfl
      · rw [conversation_lingering hne hc]
        exact speaks_nothing rfl (List.append_nil w.announced).symm
    · have hactive : w.maker.state.active = true := by rw [hs]; rfl
      have hlost : (w.withDevice { w.maker.bleDevice with
          connected := false, connection := none }).maker.state.active = true := hactive
      rw [if_pos hlost] at hd
      obtain ⟨hm, hspeaks, hkey⟩ := speaks_disconnect hlost (h.heartbeat.2 hs) hd
      constructor
      · rw [conversation_connected hs]
        refine (conversation_down ?_ ?_).trans (congrArg (Conversation.mk .down) hkey)
        · rw [hm]
          exact CoffeeMakerState.noConfusion
        · rw [hm]
          rfl
      · rw [conversation_connected hs]
        exact ⟨hspeaks.wire, hspeaks.announced, hspeaks.keyed⟩

theorem LinkInv.speaks_command (h : LinkInv w) {text : Bytes} (ht : text.head? = some w.key)
    (hw : Silent (BLEDevice.write uuid (encDecBytes text w.key) written w) w') :
    w'.conversation = w.conversation ∧
      Speaks [⟨w.conversation.key, uuid, text,
        w.conversation.phase ≠ .down && written == GATTLIB_SUCCESS⟩] [] w w' := by
  have hsent := (speaks_write uuid text ht written).trans hw.speaks
  rw [h.delivers] at hsent
  exact ⟨conversation_congr hw.link hw.key, hsent⟩

theorem LinkInv.speaks_written (h : LinkInv w)
    (hw : JuttaProto.write uuid data true overrideKey written w = .ok w') :
    w'.conversation = w.conversation ∧
      Speaks [⟨w.conversation.key, uuid, override w.conversation.key overrideKey data,
        w.conversation.phase ≠ .down && written == GATTLIB_SUCCESS⟩] [] w w' := by
  obtain ⟨ht, rfl⟩ := write_ok hw
  exact h.speaks_command ht (.refl _)

theorem LinkInv.converse_call (h : LinkInv w) (hc : Call.issue written w c = .ok w') :
    Converses (.call c written) w w' := by
  have hpayload {uuid : Uuid} {data : Bytes} {overrideKey : Bool}
      (hp : c.payload = some (uuid, data, overrideKey)) :
      w'.conversation = w.conversation ∧
        Speaks [⟨w.conversation.key, uuid, override w.conversation.key overrideKey data,
          w.conversation.phase ≠ .down && written == GATTLIB_SUCCESS⟩] [] w w' := by
    rw [issue_payload hp] at hc
    exact h.speaks_written hc
  have hread (hs : Silent w w') : w'.conversation = w.conversation ∧ Speaks [] [] w w' :=
    ⟨conversation_congr hs.link hs.key, hs.speaks⟩
  cases c with
  | connect g =>
    cases hr : JuttaProto.connect g written w with
    | error e =>
      rw [Call.issue, hr] at hc
      cases hc
    | ok r =>
      rw [Call.issue, hr] at hc
      cases hc
      obtain ⟨_, _, hn, hs⟩ := h.converse_connect hr
      exact ⟨hn, hs⟩
  | disconnect => exact h.converse_disconnect hc
  | write_tx _ | write_tx_string _ | shutdown | stay_in_ble | lock | unlock =>
    obtain ⟨hn, hs⟩ := hpayload rfl
    exact ⟨hn, hs⟩
  | request_coffee =>
    obtain ⟨command, hcommand, hc⟩ := bind_ok hc
    obtain ⟨hn, hs⟩ := h.speaks_written hc
    refine ⟨hn, ?_⟩
    simp only [Conversation.utters, Call.command, hcommand, Except.toOption, Option.map_some]
    exact hs
  | request_coffee_product product =>
    obtain ⟨commandHexStr, hhex, hc⟩ := bind_ok hc
    obtain ⟨command, hcommand, hc⟩ := bind_ok hc
    obtain ⟨hn, hs⟩ := h.speaks_written hc
    refine ⟨hn, ?_⟩
    simp only [Conversation.utters, Call.command, hhex, ok_bind, hcommand, Except.toOption,
      Option.map_some]
    exact hs
  | request_statistics replies mode =>
    obtain ⟨hn, hs⟩ := h.speaks_command (head?_override (build_stats_cmd_ne_nil mode) _ _)
      (request_statistics_silent hc)
    exact ⟨hn, hs⟩
  | request_status _ | request_progress _ | request_about_info _ | read_rx _ =>
    obtain ⟨hn, hs⟩ := hread (read_characteristic_silent hc)
    exact ⟨hn, hs⟩

theorem LinkInv.converse (h : LinkInv w) (hs : JuttaProto.step w a = .ok w') :
    Converses a w w' := by
  cases a with
  | call c written => exact h.converse_call hs
  | notification n =>
    have hsilent := on_characteristic_read_silent hs
    exact ⟨conversation_congr hsilent.link hsilent.key, hsilent.speaks⟩
  | linkLost written => exact h.converse_linkLost hs

theorem spoken_refined : (Conversation.spoken.map Message.frame).Refines step LinkInv
    World.conversation World.wire where
  inv := fun h hs => h.step hs
  next := fun h hs => (h.converse hs).next
  out := fun h hs => (h.converse hs).speaks.wire

theorem announced_refined : Conversation.announced.Refines step LinkInv
    World.conversation World.announced where
  inv := fun h hs => h.step hs
  next := fun h hs => (h.converse hs).next
  out := fun h hs => (h.converse hs).speaks.announced

theorem spoken_run (h : run step (World.fresh machines) acts = .ok w) :
    w.conversation = Conversation.spoken.final {} acts ∧
      w.wire = (Conversation.spoken.outputs {} acts).map Message.frame := by
  obtain ⟨hconv, hwire⟩ := spoken_refined.run (linkInv_fresh machines) h
  rw [Transducer.outputs_map] at hwire
  exact ⟨hconv, hwire⟩

theorem announced_run (h : run step (World.fresh machines) acts = .ok w) :
    w.conversation = Conversation.announced.final {} acts ∧
      w.announced = Conversation.announced.outputs {} acts :=
  announced_refined.run (linkInv_fresh machines) h

/-- In every run the frames on the wire and the states that are announced are those of the
conversation, which depends on the calls, on the attempts to connect and on losses of the link
only, and not on what the device sends. -/
theorem conversation_refined (h : run step (World.fresh machines) acts = .ok w) :
    w.conversation = Conversation.spoken.final {} acts ∧
      w.wire = (Conversation.spoken.outputs {} acts).map Message.frame ∧
      w.announced = Conversation.announced.outputs {} acts :=
  ⟨(spoken_run h).1, (spoken_run h).2, (announced_run h).2⟩

/-- A connection in which the machine is locked, until the user and then the device end it. -/
def exampleActions : List Action :=
  [.call (.connect exampleReplies) GATTLIB_SUCCESS, .call .lock GATTLIB_SUCCESS,
    .call .disconnect GATTLIB_SUCCESS, .linkLost GATTLIB_SUCCESS]

theorem conversation_refined_example :
    ∃ w, run step (World.fresh [exampleJoe.machine]) exampleActions = .ok w ∧
      w.conversation = Conversation.spoken.final {} exampleActions ∧
      w.wire = (Conversation.spoken.outputs {} exampleActions).map Message.frame ∧
      w.announced = Conversation.announced.outputs {} exampleActions := by
  have h : ∃ w, run step (World.fresh [exampleJoe.machine]) exampleActions = .ok w ∧ True := by
    decide +kernel
  obtain ⟨w, hw, _⟩ := h
  exact ⟨w, hw, conversation_refined hw⟩

theorem linkInv_run (h : run step (World.fresh machines) acts = .ok w) : LinkInv w :=
  run_invariant LinkInv (fun _ _ _ hi hs => hi.step hs) (linkInv_fresh machines) h

theorem LinkInv.conversation_state (h : LinkInv w) : w.conversation.state = w.maker.state := by
  rcases h.settled with hs | hs
  · rw [hs]
    cases hc : w.maker.bleDevice.connected with
    | false =>
      rw [conversation_down (by rw [hs]; decide) hc]
      rfl
    | true =>
      rw [conversation_lingering (by rw [hs]; decide) hc]
      rfl
  · rw [hs, conversation_connected hs]
    rfl

/-- In every run the announced states lead from the first state to the present one, each of them
to one that may follow it. -/
theorem announced_walk (h : run step (World.fresh machines) acts = .ok w) :
    Walk CoffeeMakerState.Follows .DISCONNECTED w.announced w.maker.state := by
  obtain ⟨hconv, hann⟩ := announced_run h
  have hwalk := Conversation.announced.outputs_walk Conversation.announces_walk {} acts
  rw [← hconv, (linkInv_run h).conversation_state] at hwalk
  rw [hann]
  exact hwalk

theorem announced_walk_example :
    ∃ w, run step (World.fresh [exampleJoe.machine]) exampleActions = .ok w ∧
      Walk CoffeeMakerState.Follows .DISCONNECTED w.announced w.maker.state := by
  have h : ∃ w, run step (World.fresh [exampleJoe.machine]) exampleActions = .ok w ∧ True := by
    decide +kernel
  obtain ⟨w, hw, _⟩ := h
  exact ⟨w, hw, announced_walk hw⟩

end JuttaProto
