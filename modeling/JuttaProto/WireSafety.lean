import JuttaProto.ConversationRefined

namespace JuttaProto
open Run
set_option autoImplicit true

/-- A call without what the device answers to it. Of an attempt to connect there remains whether
it finds a device, and the first byte of the manufacturer data. -/
def Call.asked : Call → Call
  | .connect g => .connect { g with
      notifications := [], manData := g.manData.map (·.take 1), doc := none, about := none }
  | .request_statistics _ mode => .request_statistics ⟨fun _ => none, none⟩ mode
  | .request_status _ => .request_status none
  | .request_progress _ => .request_progress none
  | .request_about_info _ => .request_about_info none
  | .read_rx _ => .read_rx none
  | c => c

def Action.asked : Action → Option Action
  | .call c written => some (.call c.asked written)
  | .notification _ => none
  | .linkLost written => some (.linkLost written)

theorem headD_take_one (data : Option Bytes) (key : UInt8) :
    ((data.map (·.take 1)).getD []).headD key = (data.getD []).headD key := by
  cases data with
  | none => rfl
  | some data =>
    cases data with
    | nil => rfl
    | cons b data => rfl

namespace Conversation

theorem opened_asked (s : Conversation) (g : ConnectReplies) :
    s.opened { g with
      notifications := [], manData := g.manData.map (·.take 1), doc := none, about := none } =
      s.opened g := by
  rw [opened, opened, headD_take_one]

theorem spoken_asked (s : Conversation) (a : Action) :
    spoken.Replaces s a a.asked := by
  cases a with
  | call c written =>
    cases c with
    | connect g =>
      constructor
      · change (if s.opens g then s.opened _ else s) = if s.opens g then s.opened g else s
        rw [opened_asked]
      · change (if s.opens g then [modeMessage (s.opened _).key _ _] else []) =
          if s.opens g then [modeMessage (s.opened g).key _ _] else []
        rw [opened_asked]
    | _ => exact ⟨rfl, rfl⟩
  | notification _ | linkLost _ => exact ⟨rfl, rfl⟩

theorem announced_asked (s : Conversation) (a : Action) :
    announced.Replaces s a a.asked := by
  cases a with
  | call c written =>
    cases c with
    | connect g =>
      apply And.intro _ rfl
      change (if s.opens g then s.opened _ else s) = if s.opens g then s.opened g else s
      rw [opened_asked]
    | _ => exact ⟨rfl, rfl⟩
  | notification _ | linkLost _ => exact ⟨rfl, rfl⟩

end Conversation

/-- Nothing that a device sends, apart from its key, makes a difference to what is sent to it or to
the states that are announced. -/
theorem unheard (h : run step (World.fresh machines) acts = .ok w)
    (h' : run step (World.fresh machines') acts' = .ok w')
    (ha : acts.filterMap Action.asked = acts'.filterMap Action.asked) :
    w.wire = w'.wire ∧ w.announced = w'.announced ∧ w.maker.state = w'.maker.state := by
  obtain ⟨hconv, hwire⟩ := spoken_run h
  obtain ⟨hconv', hwire'⟩ := spoken_run h'
  obtain ⟨_, hann⟩ := announced_run h
  obtain ⟨_, hann'⟩ := announced_run h'
  obtain ⟨hfinal, hspoken⟩ := Conversation.spoken.run_filterMap Conversation.spoken_asked {} acts
  obtain ⟨hfinal', hspoken'⟩ := Conversation.spoken.run_filterMap Conversation.spoken_asked {} acts'
  obtain ⟨_, hannounced⟩ :=
    Conversation.announced.run_filterMap Conversation.announced_asked {} acts
  obtain ⟨_, hannounced'⟩ :=
    Conversation.announced.run_filterMap Conversation.announced_asked {} acts'
  have hsame : w.conversation = w'.conversation := by
    rw [hconv, hconv', ← hfinal, ← hfinal', ha]
  refine ⟨?_, ?_, ?_⟩
  · rw [hwire, hwire', ← hspoken, ← hspoken', ha]
  · rw [hann, hann', ← hannounced, ← hannounced', ha]
  · rw [← (linkInv_run h).conversation_state, ← (linkInv_run h').conversation_state, hsame]

theorem unheard_example :
    ∃ w w', run step (World.fresh [exampleJoe.machine])
        (exampleActions ++ [.call (.request_status none) GATTLIB_SUCCESS]) = .ok w ∧
      run step (World.fresh [exampleJoe.machine])
        (.notification ⟨[], 0⟩ :: exampleActions ++
          [.call (.request_status (some [1])) GATTLIB_SUCCESS]) = .ok w' ∧
      w.wire = w'.wire ∧ w.announced = w'.announced ∧ w.maker.state = w'.maker.state := by
  have h : ∃ w, run step (World.fresh [exampleJoe.machine])
      (exampleActions ++ [.call (.request_status none) GATTLIB_SUCCESS]) = .ok w ∧ True := by
    decide +kernel
  have h' : ∃ w', run step (World.fresh [exampleJoe.machine])
      (.notification ⟨[], 0⟩ :: exampleActions ++
        [.call (.request_status (some [1])) GATTLIB_SUCCESS]) = .ok w' ∧ True := by
    decide +kernel
  obtain ⟨w, hw, _⟩ := h
  obtain ⟨w', hw', _⟩ := h'
  exact ⟨w, w', hw, hw', unheard hw hw' rfl⟩

/-- The key of the device at the other end of the link, as long as there is one. -/
def peer : Option UInt8 → Action → Option UInt8
  | key, .call (.connect g) _ => if LinkOpens g then (g.manData.getD []).head? else key
  | _, .linkLost _ => none
  | key, _ => key

def Conversation.peerKey (s : Conversation) : Option UInt8 :=
  if s.phase = .down then none else some s.key

theorem Conversation.peerKey_up {s : Conversation} (h : s.phase ≠ .down) :
    s.peerKey = some s.key := if_neg h

theorem Conversation.delivered_key {s : Conversation} {m : Message} (hm : m ∈ s.utters a)
    (hd : m.delivered = true) : (s.next a).peerKey = some m.key := by
  have hcommand (command : Option (Uuid × Bytes × Bool)) (written : Int)
      (hm : m ∈ s.ordered written command) : s.peerKey = some m.key := by
    cases command with
    | none => cases hm
    | some command =>
      cases List.mem_singleton.1 hm
      exact peerKey_up (of_decide_eq_true (Bool.and_eq_true_iff.1 hd).1)
  cases a with
  | call c written =>
    have hordered := hcommand c.command written
    cases c with
    | connect g =>
      rw [utters] at hm
      rw [next]
      split at hm
      · rename_i ho
        cases List.mem_singleton.1 hm
        rw [if_pos ho]
        exact peerKey_up Phase.noConfusion
      · cases hm
    | disconnect =>
      change m ∈ (if s.phase = .inUse then _ else _) at hm
      change (if s.phase = .inUse then _ else _ : Conversation).peerKey = _
      split at hm
      · rename_i hp
        cases List.mem_singleton.1 hm
        rw [if_pos hp]
        exact peerKey_up Phase.noConfusion
      · cases hm
    | _ => exact hordered hm
  | notification n => cases hm
  | linkLost written =>
    change m ∈ (if s.phase = .inUse then _ else _) at hm
    split at hm
    · cases List.mem_singleton.1 hm
      cases hd
    · cases hm

theorem LinkInv.peerKey (h : LinkInv w) (hs : JuttaProto.step w a = .ok w') :
    w'.conversation.peerKey = peer w.conversation.peerKey a := by
  have hnext := (h.converse hs).next
  cases a with
  | call c written =>
    cases c with
    | connect g =>
      obtain ⟨⟨w₁, b⟩, hc, he⟩ := map_ok hs
      cases he
      obtain ⟨hdown, hkey, _, _⟩ := h.converse_connect hc
      by_cases hg : LinkOpens g
      · have hopens : w.conversation.opens g := ⟨hdown, hg⟩
        rw [Conversation.next, if_pos hopens] at hnext
        have hup : w₁.conversation.phase ≠ .down := by
          rw [hnext]
          exact Phase.noConfusion
        rw [Conversation.peerKey_up hup, peer, if_pos hg, hkey hg]
        rfl
      · have hopens : ¬w.conversation.opens g := fun ho => hg ho.2
        rw [peer, if_neg hg, hnext, Conversation.next, if_neg hopens]
    | disconnect =>
      change w'.conversation = if w.conversation.phase = .inUse then _ else _ at hnext
      rw [hnext]
      split
      · rename_i hp
        exact (Conversation.peerKey_up (by rw [hp]; decide)).symm
      · rfl
    | _ =>
      rw [hnext]
      rfl
  | notification n =>
    rw [hnext]
    rfl
  | linkLost written =>
    rw [hnext]
    rfl

theorem LinkInv.peerKey_run (h : LinkInv w) (hr : run JuttaProto.step w acts = .ok w') :
    w'.conversation.peerKey = acts.foldl peer w.conversation.peerKey := by
  induction acts generalizing w with
  | nil =>
    cases hr
    rfl
  | cons a acts ih =>
    rw [run_cons] at hr
    obtain ⟨w₁, h₁, hr⟩ := bind_ok hr
    rw [List.foldl_cons, ← h.peerKey h₁]
    exact ih (h.step h₁) hr

/-- Every frame that is delivered begins, once it has been decoded with the key of the device at the
other end of the link, with this key. -/
theorem delivered_decodes (h : run step (World.fresh machines) acts = .ok w)
    (hs : step w a = .ok w') :
    ∀ call ∈ w'.wire.drop w.wire.length, call.result = true →
      ∃ key, (acts ++ [a]).foldl peer none = some key ∧
        (encDecBytes call.data key).head? = some key := by
  intro call hcall hresult
  have hinv := linkInv_run h
  have hpeer := (linkInv_fresh machines).peerKey_run h
  obtain ⟨hnext, hspeaks⟩ := hinv.converse hs
  rw [hspeaks.wire, List.drop_left] at hcall
  obtain ⟨m, hm, rfl⟩ := List.mem_map.1 hcall
  have hkey := Conversation.delivered_key hm hresult
  rw [← hnext, hinv.peerKey hs, hpeer] at hkey
  refine ⟨m.key, ?_, ?_⟩
  · rw [List.foldl_append]
    exact hkey
  · rw [Message.frame, encDecBytes_twice]
    exact hspeaks.keyed m hm

theorem delivered_decodes_example :
    ∃ w w', run step (World.fresh [exampleJoe.machine])
        [.call (.connect exampleReplies) GATTLIB_SUCCESS] = .ok w ∧
      step w (.call .lock GATTLIB_SUCCESS) = .ok w' ∧
      ∀ call ∈ w'.wire.drop w.wire.length, call.result = true →
        ∃ key, ([Action.call (.connect exampleReplies) GATTLIB_SUCCESS] ++
            [Action.call .lock GATTLIB_SUCCESS]).foldl peer none = some key ∧
          (encDecBytes call.data key).head? = some key := by
  have h : ∃ w, run step (World.fresh [exampleJoe.machine])
      [.call (.connect exampleReplies) GATTLIB_SUCCESS] = .ok w ∧
        ∃ w', step w (.call .lock GATTLIB_SUCCESS) = .ok w' ∧ True := by
    decide +kernel
  obtain ⟨w, hw, w', hw', _⟩ := h
  exact ⟨w, w', hw, hw', delivered_decodes hw hw'⟩

end JuttaProto
