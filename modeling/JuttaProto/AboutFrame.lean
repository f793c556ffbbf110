import JuttaProto.Faults

namespace JuttaProto
open Run
set_option autoImplicit true

theorem mapM_index_ok {data : Bytes} (h : start + n ≤ data.length) :
    (List.range' start n).mapM (index site data) = .ok ((data.drop start).take n) := by
  induction n generalizing start with
  | zero => rw [List.take_zero]; rfl
  | succ n ih =>
    have hlt : start < data.length := by omega
    rw [List.range'_succ, List.mapM_cons, index_ok (List.getElem?_eq_getElem hlt), ok_bind,
      ih (by omega), ok_bind, List.drop_eq_getElem_cons hlt, List.take_succ_cons]
    rfl

theorem mapM_index_error {data : Bytes} (h : data.length < start + n) (hn : 0 < n) :
    (List.range' start n).mapM (index site data) = .error (.outOfRange site) := by
  induction n generalizing start with
  | zero => omega
  | succ n ih =>
    rw [List.range'_succ, List.mapM_cons]
    cases hb : data[start]? with
    | none => rw [index, hb, error_bind]
    | some b =>
      have hlt := (List.getElem?_eq_some_iff.1 hb).1
      rw [index_ok hb, ok_bind, ih (by omega) (by omega), error_bind]

theorem parse_version_ok {data : Bytes} (h : stop < data.length) (hs : start ≤ stop + 1) :
    parse_version data start stop =
      .ok (((data.drop start).take (stop + 1 - start)).filter (· ≠ 0)) := by
  rw [parse_version, mapM_index_ok (by omega), ok_bind]
  rfl

theorem parse_version_error {data : Bytes} (h : data.length ≤ stop) (hs : start ≤ stop) :
    parse_version data start stop = .error (.outOfRange .parse_version) := by
  rw [parse_version, mapM_index_error (by omega) (by omega), error_bind]

def aboutDataOf (data : Bytes) : AboutData where
  blueFrogVersion := ((data.drop 27).take 8).filter (· ≠ 0)
  coffeeMachineVersion := ((data.drop 35).take 16).filter (· ≠ 0)

def updateAbout (aboutData : AboutData) (w : World) : World :=
  if aboutData ≠ w.maker.aboutData then
    emit (.aboutDataChanged aboutData) { w with maker := { w.maker with aboutData } }
  else w

theorem parse_about_data_ok {data : Bytes} (h : 51 ≤ data.length) (w : World) :
    parse_about_data data w = .ok (updateAbout (aboutDataOf data) w) := by
  have hne (a b : AboutData) : (a.blueFrogVersion ≠ b.blueFrogVersion ∨
      a.coffeeMachineVersion ≠ b.coffeeMachineVersion) ↔ a ≠ b := by
    cases a
    cases b
    simp only [ne_eq, AboutData.mk.injEq, not_and_or]
  have hn := hne (aboutDataOf data) w.maker.aboutData
  rw [parse_about_data, parse_version_ok (by omega) (by omega), ok_bind,
    parse_version_ok (by omega) (by omega), ok_bind, updateAbout]
  by_cases ha : aboutDataOf data ≠ w.maker.aboutData
  · rw [if_pos ha]
    simp only [aboutDataOf] at hn ha ⊢
    rw [if_pos (hn.2 ha)]
    rfl
  · rw [if_neg ha]
    simp only [aboutDataOf] at hn ha ⊢
    rw [if_neg (fun h => ha (hn.1 h))]
    rfl

theorem parse_about_data_error {data : Bytes} (h : data.length < 51) (w : World) :
    parse_about_data data w = .error (.outOfRange .parse_version) := by
  rw [parse_about_data]
  by_cases h34 : data.length ≤ 34
  · rw [parse_version_error h34 (by decide), error_bind]
  · rw [parse_version_ok (by omega) (by decide), ok_bind,
      parse_version_error (by omega) (by decide), error_bind]

end JuttaProto
