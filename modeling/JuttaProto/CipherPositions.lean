import JuttaProto.ByteEncDecoder

namespace JuttaProto
open Conjugation Nibble
set_option autoImplicit true

theorem box_numbers2_ne (x : ZMod 16) : box numbers2 x ≠ x := by
  revert x; decide

/-- The second table moves every nibble, and the shifts and the first table only rename what it
moves. -/
theorem nibbleMap_ne (a b x : ZMod 16) : nibbleMap a b x ≠ x :=
  shifted_ne (sandwich_ne box_numbers1 (shifted_ne box_numbers2_ne b)) a x

theorem shuffle_ne (b : UInt8) (c kl kr : Int) : shuffle (promote b) c kl kr ≠ b := by
  intro h
  have hr := congrArg residue h
  rw [residue_shuffle, cast_promote] at hr
  exact nibbleMap_ne _ _ _ hr

theorem high_encDecByte (kl kr : UInt8) (c : Int) (d : UInt8) :
    encDecByte kl kr c d >>> 4 = shuffle (promote (d >>> 4)) c (promote kl) (promote kr) :=
  high_join (shuffle_lt _ _ _ _) (shuffle_lt _ _ _ _)

theorem low_encDecByte (kl kr : UInt8) (c : Int) (d : UInt8) :
    encDecByte kl kr c d &&& 15 =
      shuffle (promote (d &&& 15)) (c + 1) (promote kl) (promote kr) :=
  low_join (shuffle_lt _ _ _ _) (shuffle_lt _ _ _ _)

theorem byteMap_nibbles_ne (key : UInt8) (i : Nat) (d : UInt8) :
    byteMap key i d >>> 4 ≠ d >>> 4 ∧ byteMap key i d &&& 15 ≠ d &&& 15 := by
  rw [byteMap, high_encDecByte, low_encDecByte]
  exact ⟨shuffle_ne _ _ _ _, shuffle_ne _ _ _ _⟩

theorem getElem?_encDecBytes (data : Bytes) (key : UInt8) (i : Nat) :
    (encDecBytes data key)[i]? = data[i]?.map (byteMap key i) := by
  rw [encDecBytes_mapIdx, List.getElem?_mapIdx]

def keyCheck (decoded : Bytes) (key : UInt8) : Bool := decoded.head? == some key

/-- No nibble is encoded as itself. So a frame that begins with the key but has never been
encoded is decoded to one that begins with another byte, and the check rejects it. -/
theorem encDecBytes_nibbles_ne (key : UInt8) (data : Bytes) :
    List.Forall₂ (fun d r : UInt8 => r >>> 4 ≠ d >>> 4 ∧ r &&& 15 ≠ d &&& 15)
      data (encDecBytes data key) ∧
    ∃ r rest, encDecBytes (key :: data) key = r :: rest ∧ r ≠ key ∧
      keyCheck (encDecBytes (key :: data) key) key = false := by
  constructor
  · apply List.forall₂_iff_get.2
    refine ⟨(length_encDecBytes data key).symm, fun i hd hr => ?_⟩
    have he : (encDecBytes data key)[i]? = data[i]?.map (byteMap key i) :=
      getElem?_encDecBytes data key i
    rw [List.getElem?_eq_getElem hr, List.getElem?_eq_getElem hd] at he
    simp only [List.get_eq_getElem, Option.some.inj he]
    exact byteMap_nibbles_ne key i _
  · have hne : byteMap key 0 key ≠ key := by
      intro h
      have hn := (byteMap_nibbles_ne key 0 key).1
      rw [h] at hn
      exact hn rfl
    rw [encDecBytes_mapIdx, List.mapIdx_cons]
    refine ⟨_, _, rfl, hne, ?_⟩
    simpa only [keyCheck, List.head?_cons, beq_eq_false_iff_ne, ne_eq, Option.some.injEq]
      using hne

example : keyCheck (encDecBytes [0x2A, 0x7F, 0x80] 0x2A) 0x2A = false := by decide +kernel

theorem shuffle_add_256 (d c kl kr : Int) : shuffle d (c + 256) kl kr = shuffle d c kl kr := by
  have hc : ((256 : Int) : ZMod 16) = 0 := by decide
  have hs : (c + 256) >>> (4 : Nat) = (c >>> (4 : Nat)) + 16 := by
    rw [Int.shiftRight_eq_div_pow, Int.shiftRight_eq_div_pow]
    omega
  have h16 : ((16 : Int) : ZMod 16) = 0 := by decide
  have ho : outerShift (c + 256) kl = outerShift c kl := by
    simp only [outerShift, Int.cast_add, hc, add_zero]
  have hi : innerShift (c + 256) kl kr = innerShift c kl kr := by
    simp only [innerShift, hs, Int.cast_add, Int.cast_sub, hc, h16, add_zero]
  apply residue_inj (shuffle_lt _ _ _ _) (shuffle_lt _ _ _ _)
  rw [residue_shuffle, residue_shuffle, ho, hi]

/-- The nibble counter of a byte is twice its position, and its upper part matters modulo 16. -/
theorem byteMap_add_128 (key : UInt8) (i : Nat) : byteMap key (i + 128) = byteMap key i := by
  funext d
  have hc : 2 * ((i + 128 : Nat) : Int) = 2 * (i : Int) + 256 := by omega
  have hc' : 2 * (i : Int) + 256 + 1 = 2 * (i : Int) + 1 + 256 := by omega
  simp only [byteMap, encDecByte, hc, hc', shuffle_add_256]

/-- The cipher treats data in blocks of 128 bytes that do not know of each other: the byte at a
position depends on the key, the input byte there and the position inside of its block. -/
theorem encDecBytes_blocks (key : UInt8) (h : 128 ∣ a.length) (b : Bytes) :
    encDecBytes (a ++ b) key = encDecBytes a key ++ encDecBytes b key ∧
      ∀ data i, (encDecBytes data key)[i]? = data[i]?.map (byteMap key (i % 128)) := by
  constructor
  · rw [encDecBytes_mapIdx, encDecBytes_mapIdx, encDecBytes_mapIdx]
    exact mapIdx_append_of_periodic (byteMap_add_128 key) h b
  · intro data i
    rw [getElem?_encDecBytes, mod_of_periodic (byteMap_add_128 key)]

theorem encDecBytes_blocks_two :
    encDecBytes (List.replicate 128 0 ++ [24]) 42 =
        encDecBytes (List.replicate 128 0) 42 ++ encDecBytes [24] 42 ∧
      ∀ data i, (encDecBytes data 42)[i]? = data[i]?.map (byteMap 42 (i % 128)) := by
  have h : 128 ∣ (List.replicate 128 0 : Bytes).length := by rw [List.length_replicate]
  exact encDecBytes_blocks 42 h [24]

end JuttaProto
