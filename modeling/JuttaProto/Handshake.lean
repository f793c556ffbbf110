import JuttaProto.ManufacturerData

namespace JuttaProto
open Run
set_option autoImplicit true

def ConnectReplies.payload (g : ConnectReplies) : Bytes := g.manData.getD []

def Handshakes (g : ConnectReplies) (w : World) : Prop :=
  w.maker.bleDevice.idle ∧ LinkOpens g ∧
    ∃ w', run on_notification (linkOpened g w) g.notifications = .ok w'

/-- The attempt fails without a trace of its payload: it returns false, the machine data are those
before the handshake, there is no heartbeat thread, and no other key is used for a frame. -/
def FailsCleanly (g : ConnectReplies) (written : Int) (w : World) : Prop :=
  ∃ w₁ w', run on_notification (linkOpened g w) g.notifications = .ok w₁ ∧
    connect g written w = .ok (w', false) ∧
    w'.maker.manData = w₁.maker.manData ∧ w'.maker.joe = w₁.maker.joe ∧
    w'.maker.joeInstance = w₁.maker.joeInstance ∧ w'.maker.alerts = w₁.maker.alerts ∧
    w'.maker.state = .DISCONNECTED ∧ w'.maker.heartbeatThread = false ∧
    ∀ calls, w'.wire = w.wire ++ calls → ∀ call ∈ calls,
      ∃ key, g.payload.head? = some key ∧ (encDecBytes call.data key).head? = some key

/-- The handshake reads no byte behind the payload, and the attempt fails cleanly on a payload
that is too short for the fields. -/
def HandshakeClean (g : ConnectReplies) (written : Int) (w : World) : Prop :=
  connect g written w ≠ .error (.outOfRange .parse_man_data) ∧
    (Handshakes g w → g.payload.length < 16 → FailsCleanly g written w)

abbrev ReadsInside (x : Except Fault α) : Prop :=
  Within (fun f => f ≠ .outOfRange .parse_man_data) x

theorem readsInside_of_faultsIn {x : Except Fault α} (h : FaultsIn origins x)
    (ho : .manData ∉ origins) : ReadsInside x := by
  refine Within.mono h fun f hf he => ?_
  rw [he] at hf
  exact ho hf

theorem parse_man_data_readsInside (h : 16 ≤ data.length) (doc : Option (List XMLElement))
    (w : World) : ReadsInside (parse_man_data data doc w) := by
  obtain ⟨manData, hm, _⟩ := encode_read_man_data h
  rw [parse_man_data, hm, ok_bind]
  simp only
  split
  · exact within_error (by decide)
  · exact (readsInside_of_faultsIn (faultsIn_load_joe _ doc) (by decide)).bind
      fun _ _ => within_ok _ _

theorem on_connected_readsInside (h : 16 ≤ g.payload.length) (written : Int) (w : World) :
    ReadsInside (on_connected g written w) := by
  have hm : g.manData.getD [] ≠ [] := by
    intro he
    rw [ConnectReplies.payload, he] at h
    cases h
  rw [on_connected, if_neg hm]
  apply (parse_man_data_readsInside h g.doc w).bind
  intro w₁ _
  apply (readsInside_of_faultsIn (faultsIn_write _ _ _ _ _ _) (by decide)).bind
  intro w₂ _
  apply (readsInside_of_faultsIn (faultsIn_read_characteristic _ _ _) (by decide)).bind
  intro w₃ _
  exact readsInside_of_faultsIn (faultsIn_start_heartbeat w₃) (by decide)

theorem connect_readsInside (h : Handshakes g w → 16 ≤ g.payload.length) (written : Int) :
    ReadsInside (connect g written w) := by
  by_cases hi : w.maker.bleDevice.idle
  · by_cases hg : LinkOpens g
    · rw [connect_opens hi hg]
      have hrun := Within.run (fun w (n : Notification) =>
        faultsIn_on_characteristic_read n.data n.uuid w) (linkOpened g w) g.notifications
      apply (readsInside_of_faultsIn hrun (by decide)).bind
      intro w₁ h₁
      exact (on_connected_readsInside (h ⟨hi, hg, w₁, h₁⟩) written (linkUp w₁)).map _
    · obtain ⟨n, hn⟩ := connect_fails written hi hg
      rw [hn]
      exact within_ok _ _
  · obtain ⟨e, he, ho⟩ := connect_asserts g written hi
    rw [he]
    apply within_error
    intro hf
    rw [hf] at ho
    cases ho

/-- Once the handshake has begun, the attempt cannot return false. -/
theorem handshake_returns_true (hs : Handshakes g w) (h : connect g written w = .ok (w', b)) :
    b = true := by
  obtain ⟨hi, hg, w₁, h₁⟩ := hs
  rw [connect_opens hi hg, h₁, ok_bind] at h
  cases hc : on_connected g written (linkUp w₁) with
  | error e =>
    rw [hc] at h
    cases h
  | ok w₂ =>
    rw [hc] at h
    cases h
    rfl

/-- The handshake deals with its payload as it should exactly when it does not begin or gets a
payload with all fields. -/
theorem handshake_clean_iff (g : ConnectReplies) (written : Int) (w : World) :
    HandshakeClean g written w ↔ (Handshakes g w → 16 ≤ g.payload.length) := by
  constructor
  · rintro ⟨_, hclean⟩ hs
    by_contra hlen
    obtain ⟨_, w', _, hc, _⟩ := hclean hs (not_le.1 hlen)
    cases handshake_returns_true hs hc
  · intro h
    refine ⟨fun he => connect_readsInside h written _ he rfl, fun hs hlen => ?_⟩
    exact absurd (h hs) (not_le.2 hlen)

/-- Without a payload the attempt ends in an assertion, and with a payload of one byte it reads
behind it. -/
theorem handshake_faults :
    Handshakes { exampleReplies with manData := some [] } (World.fresh [exampleJoe.machine]) ∧
    connect { exampleReplies with manData := some [] } GATTLIB_SUCCESS
        (World.fresh [exampleJoe.machine]) = .error (.assertion .heartbeatThread) ∧
    connect { exampleReplies with manData := some [42] } GATTLIB_SUCCESS
        (World.fresh [exampleJoe.machine]) = .error (.outOfRange .parse_man_data) := by
  refine ⟨⟨⟨rfl, rfl⟩, ?_, _, rfl⟩, ?_, ?_⟩
  · decide +kernel
  · decide +kernel
  · decide +kernel

end JuttaProto
