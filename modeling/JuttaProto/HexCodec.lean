import JuttaProto.Faults
import JuttaProto.Slots

namespace JuttaProto
open Nibble Run Slots
set_option autoImplicit true

/-- The loop of `to_hex_string` from the index `i` on, with every store into the result. -/
def to_hex_string_loop (data : Bytes) (i : Nat) (result : CString) : Option CString :=
  if h : i < data.length then do
    let left := HEX_CHARS.get ⟨(data[i] >>> 4).toNat, high_lt _⟩
    let right := HEX_CHARS.get ⟨(data[i] &&& 0x0F).toNat, low_lt _⟩
    let result ← store result (i * 2) left
    let result ← store result (i * 2 + 1) right
    to_hex_string_loop data (i + 1) result
  else some result
termination_by data.length - i

def to_hex_string_indexed (data : Bytes) : Option CString :=
  to_hex_string_loop data 0 (List.replicate (data.length * 2) 0)

/-- The character at an index up to the length, where the terminating NUL is found. -/
def charAt (hex : CString) (i : Nat) : UInt8 := hex.getD i 0

def from_hex_string_loop (hex : CString) (i : Nat) (result : Bytes) : Except Fault Bytes :=
  if i < hex.length then do
    let l ← get_hex_char_val (charAt hex i)
    let r ← get_hex_char_val (charAt hex (i + 1))
    match store result (i / 2) ((l <<< 4) ||| r) with
    | some result => from_hex_string_loop hex (i + 2) result
    | none => .error (.outOfRange .from_hex_string)
  else .ok result
termination_by hex.length - i

def from_hex_string_indexed (hex : CString) : Except Fault Bytes :=
  from_hex_string_loop hex 0 (List.replicate (hex.length / 2) 0)

theorem length_to_hex_string (data : Bytes) : (to_hex_string data).length = data.length * 2 := by
  induction data with
  | nil => rfl
  | cons b data ih =>
    rw [to_hex_string] at ih
    rw [to_hex_string, List.flatMap_cons, List.length_append, ih, List.length_cons]
    simp only [List.length_cons, List.length_nil]
    omega

theorem to_hex_string_append (data data' : Bytes) :
    to_hex_string (data ++ data') = to_hex_string data ++ to_hex_string data' :=
  List.flatMap_append

theorem store_next (filled : CString) (l a r : UInt8) (rest : CString) :
    store (filled ++ l :: a :: rest) (filled.length + 1) r = some (filled ++ l :: r :: rest) := by
  have hs := store_append (filled ++ [l]) a r rest
  rw [List.length_append, List.length_singleton, List.append_assoc, List.append_assoc] at hs
  exact hs

/-- The part of the result behind the bytes that are done is still as `resize` has left it. -/
theorem to_hex_string_loop_append (done rest : Bytes) :
    to_hex_string_loop (done ++ rest) done.length
        (to_hex_string done ++ List.replicate (rest.length * 2) 0) =
      some (to_hex_string (done ++ rest)) := by
  induction rest generalizing done with
  | nil =>
    have hend : ¬done.length < (done ++ []).length := by
      rw [List.append_nil]
      exact Nat.lt_irrefl _
    rw [to_hex_string_loop, dif_neg hend, List.append_nil]
    exact congrArg some (List.append_nil _)
  | cons b rest ih =>
    have hlt : done.length < (done ++ b :: rest).length := by
      rw [List.length_append, List.length_cons]
      omega
    have hb : (done ++ b :: rest)[done.length] = b := by
      rw [List.getElem_append_right (Nat.le_refl _)]
      simp only [Nat.sub_self, List.getElem_cons_zero]
    have hnext := ih (done ++ [b])
    rw [List.append_assoc, List.length_append, List.length_singleton, to_hex_string_append,
      List.append_assoc] at hnext
    have hfree : List.replicate ((b :: rest).length * 2) (0 : UInt8) =
        0 :: 0 :: List.replicate (rest.length * 2) 0 := by
      rw [List.length_cons, Nat.succ_mul]
      rfl
    rw [to_hex_string_loop, dif_pos hlt]
    simp only [hb]
    rw [hfree, ← length_to_hex_string done, store_append, Option.bind_eq_bind, Option.bind_some,
      store_next, Option.bind_some]
    exact hnext

theorem to_hex_string_indexed_eq (data : Bytes) :
    to_hex_string_indexed data = some (to_hex_string data) :=
  to_hex_string_loop_append [] data

theorem charAt_append (done hex : CString) (k : Nat) :
    charAt (done ++ hex) (done.length + k) = charAt hex k := by
  rw [charAt, charAt, List.getD_eq_getElem?_getD, List.getD_eq_getElem?_getD,
    List.getElem?_append_right (Nat.le_add_right _ _), Nat.add_sub_cancel_left]

theorem from_hex_string_loop_append (done : CString) (v : Bytes) (rest : CString)
    (hd : done.length = v.length * 2) :
    from_hex_string_loop (done ++ rest) done.length (v ++ List.replicate (rest.length / 2) 0) =
      (v ++ ·) <$> from_hex_string rest := by
  induction rest using from_hex_string.induct generalizing done v with
  | case1 =>
    have hend : ¬done.length < (done ++ []).length := by
      rw [List.append_nil]
      exact Nat.lt_irrefl _
    rw [from_hex_string_loop, if_neg hend]
    rfl
  | case2 c =>
    -- the terminating NUL is rejected before anything is stored
    have hlt : done.length < (done ++ [c]).length := by
      rw [List.length_append, List.length_singleton]
      omega
    have h0 : get_hex_char_val 0 = .error (.assertion .hexChar) := by decide
    have hc : charAt (done ++ [c]) done.length = c := charAt_append done [c] 0
    have hnul : charAt (done ++ [c]) (done.length + 1) = 0 := charAt_append done [c] 1
    rw [from_hex_string_loop, if_pos hlt, hc, hnul, from_hex_string, h0]
    cases get_hex_char_val c <;> rfl
  | case3 c c' hex ih =>
    have hlt : done.length < (done ++ c :: c' :: hex).length := by
      rw [List.length_append, List.length_cons]
      omega
    have hc : charAt (done ++ c :: c' :: hex) done.length = c := charAt_append done _ 0
    have hc' : charAt (done ++ c :: c' :: hex) (done.length + 1) = c' := charAt_append done _ 1
    have hi : done.length / 2 = v.length := by omega
    have hfree : List.replicate ((c :: c' :: hex).length / 2) (0 : UInt8) =
        0 :: List.replicate (hex.length / 2) 0 := by
      have hn : (c :: c' :: hex).length / 2 = hex.length / 2 + 1 := by
        simp only [List.length_cons]
        omega
      rw [hn, List.replicate_succ]
    rw [from_hex_string_loop, if_pos hlt, hc, hc', from_hex_string]
    cases get_hex_char_val c with
    | error e => rfl
    | ok l =>
      cases get_hex_char_val c' with
      | error e => rfl
      | ok r =>
        have hd' : (done ++ [c, c']).length = (v ++ [(l <<< 4) ||| r]).length * 2 := by
          simp only [List.length_append, List.length_cons, List.length_nil, hd]
          omega
        have hnext := ih (done ++ [c, c']) (v ++ [(l <<< 4) ||| r]) hd'
        rw [List.append_assoc, List.append_assoc, List.length_append] at hnext
        simp only [ok_bind]
        rw [hi, hfree, store_append]
        refine hnext.trans ?_
        cases from_hex_string hex with
        | error e => rfl
        | ok w => exact congrArg Except.ok (List.append_assoc v [_] w)

theorem from_hex_string_indexed_eq (hex : CString) :
    from_hex_string_indexed hex = from_hex_string hex := by
  refine (from_hex_string_loop_append [] [] hex rfl).trans ?_
  cases from_hex_string hex <;> rfl

/-- A character is a digit that the encoder spells in upper case, or it is rejected. -/
theorem get_hex_char_val_cases (c : UInt8) :
    (isHexDigit c = true ∧ ∃ v : Fin 16, get_hex_char_val c = .ok (UInt8.ofNat v) ∧
      HEX_CHARS.get v = toupper c) ∨
    (isHexDigit c = false ∧ get_hex_char_val c = .error (.assertion .hexChar)) := by
  have hc : ∀ n : Fin 256,
      (isHexDigit (UInt8.ofNat n) = true ∧
        ∃ v : Fin 16, get_hex_char_val (UInt8.ofNat n) = .ok (UInt8.ofNat v) ∧
          HEX_CHARS.get v = toupper (UInt8.ofNat n)) ∨
      (isHexDigit (UInt8.ofNat n) = false ∧
        get_hex_char_val (UInt8.ofNat n) = .error (.assertion .hexChar)) := by decide +kernel
  have hn := hc ⟨c.toNat, c.toNat_lt⟩
  rw [UInt8.ofNat_toNat] at hn
  exact hn

theorem get_hex_char_val_ok (h : get_hex_char_val c = .ok v) :
    isHexDigit c = true ∧ ∃ hv : v.toNat < 16, HEX_CHARS.get ⟨v.toNat, hv⟩ = toupper c := by
  rcases get_hex_char_val_cases c with ⟨hd, d, hg, hu⟩ | ⟨_, hg⟩
  · rw [h, Except.ok.injEq] at hg
    have hlt := d.2
    have hv : v.toNat = d := by
      rw [hg, UInt8.toNat_ofNat']
      omega
    refine ⟨hd, by omega, ?_⟩
    rw [← hu]
    congr 1
    exact Fin.ext hv
  · rw [h] at hg
    cases hg

theorem from_hex_string_ok_iff (s : CString) :
    (∃ v, from_hex_string s = .ok v) ↔ s.length % 2 = 0 ∧ ∀ c ∈ s, isHexDigit c = true := by
  induction s using from_hex_string.induct with
  | case1 => exact iff_of_true ⟨[], rfl⟩ ⟨rfl, List.forall_mem_nil _⟩
  | case2 c =>
    constructor
    · rintro ⟨v, h⟩
      exact absurd h (from_hex_string_single c)
    · rintro ⟨h, _⟩
      cases h
  | case3 c c' hex ih =>
    have hlen : (c :: c' :: hex).length % 2 = hex.length % 2 := by
      simp only [List.length_cons]
      omega
    rw [hlen, List.forall_mem_cons, List.forall_mem_cons]
    constructor
    · rintro ⟨v, h⟩
      obtain ⟨l, r, w, hl, hr, hw, _⟩ := from_hex_string_pair h
      obtain ⟨heven, hall⟩ := ih.1 ⟨w, hw⟩
      exact ⟨heven, (get_hex_char_val_ok hl).1, (get_hex_char_val_ok hr).1, hall⟩
    · rintro ⟨heven, hc, hc', hall⟩
      obtain ⟨l, hl, _⟩ := get_hex_char_val_digit hc
      obtain ⟨r, hr, _⟩ := get_hex_char_val_digit hc'
      obtain ⟨w, hw⟩ := ih.2 ⟨heven, hall⟩
      exact ⟨((l <<< 4) ||| r) :: w, by simp only [from_hex_string, hl, hr, hw, ok_bind]; rfl⟩

theorem to_hex_string_from_hex_string (h : from_hex_string s = .ok v) :
    to_hex_string v = s.map toupper := by
  induction s using from_hex_string.induct generalizing v with
  | case1 =>
    cases h
    rfl
  | case2 c => exact absurd h (from_hex_string_single c)
  | case3 c c' hex ih =>
    obtain ⟨l, r, w, hl, hr, hw, rfl⟩ := from_hex_string_pair h
    obtain ⟨_, hlt, hc⟩ := get_hex_char_val_ok hl
    obtain ⟨_, hrt, hc'⟩ := get_hex_char_val_ok hr
    have hbyte : to_hex_string [(l <<< 4) ||| r] = [toupper c, toupper c'] := by
      simp only [to_hex_string, List.flatMap_cons, List.flatMap_nil, List.append_nil,
        high_join hlt hrt, low_join hlt hrt, hc, hc']
    have happ := to_hex_string_append [(l <<< 4) ||| r] w
    rw [hbyte, ih hw] at happ
    exact happ

theorem eq_hexChar_of_origin {f : Fault} (h : f.origin = .hex) : f = .assertion .hexChar := by
  rw [Fault.origin.eq_def] at h
  split at h <;> first | rfl | cases h

/-- The decoder accepts the strings of even length whose characters are hexadecimal digits and
rejects all others by its assertion, and no store leaves a result. What it accepts is encoded in
upper case again, and what has been encoded is decoded to the bytes that it was. -/
theorem hex_codec :
    (∀ s, (∃ v, from_hex_string_indexed s = .ok v) ↔
      s.length % 2 = 0 ∧ ∀ c ∈ s, isHexDigit c = true) ∧
    (∀ s f, from_hex_string_indexed s = .error f → f = .assertion .hexChar) ∧
    (∀ s v, from_hex_string_indexed s = .ok v →
      to_hex_string_indexed v = some (s.map toupper)) ∧
    ∀ v, ∃ s, to_hex_string_indexed v = some s ∧ from_hex_string_indexed s = .ok v := by
  simp only [from_hex_string_indexed_eq, to_hex_string_indexed_eq]
  refine ⟨from_hex_string_ok_iff, ?_, ?_, ?_⟩
  · intro s f h
    exact eq_hexChar_of_origin (List.mem_singleton.1 (faultsIn_from_hex_string s f h))
  · intro s v h
    exact congrArg some (to_hex_string_from_hex_string h)
  · intro v
    exact ⟨_, rfl, from_hex_string_to_hex_string v⟩

end JuttaProto
