import QualityCI.Loader.Accepted
import QualityCI.Replay.Operations

/-!
# When a replay keeps its operations

The operations a replay decodes, those in the approval subject and those in the operation material
are one list in memory.  It is kept exactly when every operation that lands inside the value of an
earlier one, still standing where it was stored, writes what that value already has there.

* `ConsistentOperations` — that condition, on the list of operations alone.
* `Unaltered`, `KeptThroughout`, `OperationsKept` — the list after every step of both applications,
  at the two places it is read, and in the material the lineage stores.
* `Applied` — which values stand in the documents after some operations.
* **`replay_keeps_operations_iff`** — in every replay, the operations are kept exactly when they are
  consistent.
-/

namespace QualityCI

open Py Py.Node

/-! ## The condition -/

/-- Every operation that lands in the value of an earlier one, not replaced since, writes what that
value has there. -/
def ConsistentOperations (operations : List Operation) : Prop :=
  ∀ (h k : ℕ) (o p : Operation) (rest : List String),
    operations[h]? = some o → operations[k]? = some p → h < k →
    p.place = o.place ++ rest → rest ≠ [] →
    (∀ (m : ℕ) (q : Operation), h < m → m < k → operations[m]? = some q →
      ¬q.place <+: o.place) →
    o.value.valueAt rest = some p.value

/-- The values of the operations read as they were decoded. -/
def Unaltered (fuel : ℕ) (cells : List Node) (operations : List Operation) : Prop :=
  readOperations fuel cells 0 operations = some operations

/-- The list is unaltered after every step of an application that starts from the cells. -/
def KeptThroughout (case : Dict) (operations : List Operation) (cells : List Node) : Prop :=
  ∀ n heap, applySetOperations ⟨copyDocuments case, cells⟩ (operations.take n) = .ok heap →
    Unaltered (readFuel case operations) heap.cells operations

lemma readOperations_eq_some {fuel : ℕ} {cells : List Node} {operations : List Operation} {i : ℕ} :
    readOperations fuel cells i operations = some operations ↔
      ∀ j o, operations[j]? = some o → (shared (i + j)).read cells fuel = some o.value := by
  induction operations generalizing i with
  | nil => simp [readOperations]
  | cons o rest ih =>
      have hshift : ∀ j, i + 1 + j = i + (j + 1) := fun j => by omega
      simp only [readOperations, Option.bind_eq_bind, Option.bind_eq_some_iff, Option.some.injEq]
      constructor
      · rintro ⟨v, hv, tail, htail, hcons⟩
        obtain ⟨hhead, rfl⟩ := List.cons.inj hcons
        have hvalue : v = o.value := by rw [← hhead]
        intro j p hp
        cases j with
        | zero =>
            obtain rfl := Option.some.inj hp
            rw [Nat.add_zero, hv, hvalue]
        | succ j =>
            rw [← hshift]
            exact ih.mp htail j p hp
      · intro hall
        refine ⟨o.value, hall 0 o rfl, rest, ih.mpr fun j p hp => ?_, rfl⟩
        rw [hshift]
        exact hall (j + 1) p hp

lemma unaltered_iff {fuel : ℕ} {cells : List Node} {operations : List Operation} :
    Unaltered fuel cells operations ↔
      ∀ j o, operations[j]? = some o → (shared j).read cells fuel = some o.value := by
  rw [Unaltered, readOperations_eq_some]
  simp only [Nat.zero_add]

/-! ## The start of an application -/

lemma applySetOperation_eq_ok {i : ℕ} {heap heap' : Heap} {o : Operation} :
    applySetOperation i heap o = .ok heap' ↔
      (heap.root.member heap.cells o.documentId).isSome = true ∧
        heap.write i o.place = .ok heap' := by
  simp only [applySetOperation, bind_eq_ok, exists_unit, require_eq_ok]

/-- The copied documents refer to no operation's value. -/
lemma inline_copyDocuments (case : Dict) (path : List String) (i : ℕ) :
    (copyDocuments case).inline path ≠ some (shared i) := by
  cases path with
  | nil => simp [Node.inline, copyDocuments]
  | cons key rest =>
      intro h
      rw [Node.inline, walk_cons, copyDocuments, member_dict, Option.bind_eq_some_iff] at h
      obtain ⟨child, hchild, hwalk⟩ := h
      obtain ⟨doc, -, hdoc⟩ := List.mem_map.mp (mem_of_lookup hchild)
      obtain rfl := (Prod.mk.inj hdoc).2
      exact inline_ofJson (.obj doc) rest i hwalk

/-- The decoded values refer to no other. -/
lemma inline_newCells (operations : List Operation) (j : ℕ) (path : List String) (i : ℕ) :
    ((shared j).target (newCells operations)).inline path ≠ some (shared i) := by
  rw [target, List.getD_eq_getElem?_getD, newCells, List.getElem?_map]
  cases operations[j]? with
  | none => exact inline_ofJson .null path i
  | some o => exact inline_ofJson o.value path i

lemma target_newCells {operations : List Operation} {j : ℕ} {o : Operation}
    (h : operations[j]? = some o) :
    (shared j).target (newCells operations) = ofJson o.value := by
  rw [target, List.getD_eq_getElem?_getD, newCells, List.getElem?_map, h]
  rfl

lemma height_le_readFuel (case : Dict) {operations : List Operation} {j : ℕ} {o : Operation}
    (h : operations[j]? = some o) : height o.value ≤ readFuel case operations := by
  have hin : height o.value ∈ operations.map fun o => height o.value :=
    List.mem_map_of_mem (List.mem_of_getElem? h)
  have hle := List.single_le_sum (fun x _ => Nat.zero_le x) _ hin
  unfold readFuel
  omega

/-- The decoded values are read as they were decoded. -/
lemma unaltered_newCells (case : Dict) {operations : List Operation}
    (hwf : ∀ o ∈ operations, o.value.WF) :
    Unaltered (readFuel case operations) (newCells operations) operations := by
  rw [unaltered_iff]
  intro j o ho
  have htarget := target_newCells ho
  rw [read_target (by rw [htarget, target_ofJson]), htarget]
  exact read_ofJson (hwf o (List.mem_of_getElem? ho)) (height_le_readFuel case ho)

/-! ## One application -/

/-- After `n` operations, the values that stand in the documents are those of operations applied so
far, at the places where they were stored and not replaced since. -/
def Applied (operations : List Operation) (n : ℕ) (heap : Heap) : Prop :=
  ∀ path j, heap.root.inline path = some (shared j) →
    ∃ o, operations[j]? = some o ∧ path = o.place ∧ j < n ∧
      ∀ (m : ℕ) (q : Operation), j < m → m < n → operations[m]? = some q → ¬q.place <+: o.place

lemma Applied.step {operations : List Operation} {n : ℕ} {heap heap' : Heap} {o : Operation}
    (ho : operations[n]? = some o) (h : Applied operations n heap)
    (hstep : applySetOperation n heap o = .ok heap') : Applied operations (n + 1) heap' := by
  intro path j hinline
  rcases Heap.inline_write (applySetOperation_eq_ok.mp hstep).2 hinline with
    ⟨rfl, rfl⟩ | ⟨hnot, hold⟩
  · exact ⟨o, ho, rfl, by omega, fun m q hlow hhigh => by omega⟩
  · obtain ⟨p, hp, rfl, hlt, hstands⟩ := h path j hold
    refine ⟨p, hp, rfl, by omega, fun m q hlow hhigh hq => ?_⟩
    rcases Nat.lt_succ_iff_lt_or_eq.mp hhigh with hlt' | rfl
    · exact hstands m q hlow hlt' hq
    · obtain rfl := Option.some.inj (ho.symm.trans hq)
      exact hnot

/-- **One operation** of a consistent list leaves the list as it was. -/
lemma Unaltered.step {operations : List Operation} {fuel n : ℕ} {heap heap' : Heap}
    {o : Operation} (hconsistent : ConsistentOperations operations) (ho : operations[n]? = some o)
    (happlied : Applied operations n heap) (hkept : Unaltered fuel heap.cells operations)
    (hstep : applySetOperation n heap o = .ok heap') : Unaltered fuel heap'.cells operations := by
  rw [unaltered_iff] at hkept ⊢
  intro i p hp
  refine Heap.read_write (applySetOperation_eq_ok.mp hstep).2 ?_ (hkept i p hp)
  intro j path rest hparts hrest hinline
  obtain ⟨q, hq, rfl, hlt, hstands⟩ := happlied path j hinline
  exact ⟨fuel, fuel, q.value, o.value, hkept j q hq,
    hconsistent j n q o rest hq ho hlt hparts hrest hstands, hkept n o ho⟩

/-- **An application** of a consistent list leaves the list as it was, after every step. -/
theorem keptThroughout_of_consistent {case : Dict} {operations : List Operation}
    {cells : List Node} (hconsistent : ConsistentOperations operations)
    (hstart : Unaltered (readFuel case operations) cells operations) :
    KeptThroughout case operations cells := by
  intro n heap hrun
  have hzero : Applied operations 0 ⟨copyDocuments case, cells⟩ :=
    fun path j hinline => absurd hinline (inline_copyDocuments case path j)
  have hend := enumerateM_invariant (i := 0)
    (P := fun m heap => Applied operations m heap ∧
      Unaltered (readFuel case operations) heap.cells operations)
    ⟨hzero, hstart⟩ (fun m heap o heap' ho hinv hstep => ?_) hrun
  · exact hend.2
  · have ho' : operations[0 + m]? = some o := by
      rw [Nat.zero_add]
      rw [List.getElem?_take] at ho
      split_ifs at ho
      exact ho
    exact ⟨hinv.1.step ho' hstep, hinv.2.step hconsistent ho' hinv.1 hstep⟩

/-! ## The condition is necessary -/

/-- The place of an operation's value. -/
def placeOf (operations : List Operation) (i : ℕ) : List String :=
  ((operations[i]?).map Operation.place).getD []

lemma placeOf_eq {operations : List Operation} {i : ℕ} {o : Operation}
    (h : operations[i]? = some o) : placeOf operations i = o.place := by
  rw [placeOf, h]
  rfl

lemma placed_start (case : Dict) (operations : List Operation) :
    Heap.Placed (placeOf operations) ⟨copyDocuments case, newCells operations⟩ :=
  ⟨fun path i hinline => absurd hinline (inline_copyDocuments case path i),
    fun j path i hinline => absurd hinline (inline_newCells operations j path i)⟩

/-- **A value that no later operation replaces** is found at its place. -/
lemma walk_standing {case : Dict} {operations : List Operation} {h n : ℕ} {o : Operation}
    {heap : Heap} (ho : operations[h]? = some o) (hlt : h < n)
    (hstands : ∀ (m : ℕ) (q : Operation), h < m → m < n → operations[m]? = some q →
      ¬q.place <+: o.place)
    (hrun : applySetOperations ⟨copyDocuments case, newCells operations⟩ (operations.take n) =
      .ok heap) :
    heap.root.walk heap.cells o.place = some (shared h) := by
  have hend := enumerateM_invariant (i := 0)
    (P := fun m heap => heap.Placed (placeOf operations) ∧
      (h < m → heap.root.walk heap.cells o.place = some (shared h)))
    ⟨placed_start case operations, by omega⟩ (fun m heap q heap' hq hinv hstep => ?_) hrun
  · refine hend.2 ?_
    have hlength := (List.getElem?_eq_some_iff.mp ho).1
    rw [List.length_take]
    omega
  · obtain ⟨hplaced, hfound⟩ := hinv
    rw [List.getElem?_take] at hq
    split_ifs at hq with hm
    rw [Nat.zero_add] at hstep hfound ⊢
    have hwrite := (applySetOperation_eq_ok.mp hstep).2
    refine ⟨Heap.Placed.write hplaced (by rwa [placeOf_eq hq]), fun hn => ?_⟩
    rcases Nat.lt_succ_iff_lt_or_eq.mp hn with hbefore | rfl
    · exact Heap.Placed.walk_write hplaced hwrite (hstands m q hbefore hm hq) (hfound hbefore)
    · obtain rfl := Option.some.inj (ho.symm.trans hq)
      exact Heap.Placed.walk_written hplaced hwrite

/-- **Two values that stand** where the one lies inside the other, and that read as they were
decoded, agree. -/
lemma valueAt_of_standing {case : Dict} {operations : List Operation} {h k n : ℕ}
    {o p : Operation} {rest : List String} {heap : Heap} {fuel : ℕ}
    (ho : operations[h]? = some o) (hp : operations[k]? = some p) (hlt : h < k) (hkn : k < n)
    (hplace : p.place = o.place ++ rest)
    (hostands : ∀ (m : ℕ) (q : Operation), h < m → m < n → operations[m]? = some q →
      ¬q.place <+: o.place)
    (hpstands : ∀ (m : ℕ) (q : Operation), k < m → m < n → operations[m]? = some q →
      ¬q.place <+: p.place)
    (hrun : applySetOperations ⟨copyDocuments case, newCells operations⟩ (operations.take n) =
      .ok heap)
    (hkept : Unaltered fuel heap.cells operations) : o.value.valueAt rest = some p.value := by
  have hwalk := walk_standing hp hkn hpstands hrun
  rw [hplace, walk_append, walk_standing ho (by omega) hostands hrun, Option.bind_some] at hwalk
  have hread := unaltered_iff.mp hkept
  obtain ⟨fuel', w, hw, hread'⟩ := read_walk (hread h o ho) hwalk
  rw [hw, read_unique hread' (hread k p hp)]

/-- **The first application** keeps the list only when the list is consistent. -/
theorem consistent_of_keptThroughout {case : Dict} {operations : List Operation} {heap : Heap}
    (hrun : applySetOperations ⟨copyDocuments case, newCells operations⟩ operations = .ok heap)
    (hkept : KeptThroughout case operations (newCells operations)) :
    ConsistentOperations operations := by
  intro h k o p rest ho hp hlt hplace hrest hstands
  obtain ⟨heap', hrun'⟩ := enumerateM_take hrun (k + 1)
  refine valueAt_of_standing ho hp hlt (Nat.lt_succ_self k) hplace (fun m q hlow hhigh hq => ?_)
    (fun m q hlow hhigh => by omega) hrun' (hkept (k + 1) heap' hrun')
  rcases Nat.lt_succ_iff_lt_or_eq.mp hhigh with hbefore | rfl
  · exact hstands m q hlow hbefore hq
  · obtain rfl := Option.some.inj (hp.symm.trans hq)
    intro hprefix
    have hlength := hprefix.length_le
    have hpositive := List.length_pos_iff.mpr hrest
    rw [hplace, List.length_append] at hlength
    omega

/-- No operation replaces the value of an earlier one. -/
def NothingReplaced (operations : List Operation) : Prop :=
  ∀ (h m : ℕ) (o q : Operation), h < m → operations[h]? = some o → operations[m]? = some q →
    ¬q.place <+: o.place

/-- Where nothing is replaced, it is enough that the list is unaltered at the end. -/
theorem consistent_of_unaltered {case : Dict} {operations : List Operation} {heap : Heap}
    {fuel : ℕ} (hnothing : NothingReplaced operations)
    (hrun : applySetOperations ⟨copyDocuments case, newCells operations⟩ operations = .ok heap)
    (hkept : Unaltered fuel heap.cells operations) : ConsistentOperations operations := by
  intro h k o p rest ho hp hlt hplace hrest hstands
  have hlength := (List.getElem?_eq_some_iff.mp hp).1
  exact valueAt_of_standing ho hp hlt hlength hplace
    (fun m q hlow _ hq => hnothing h m o q hlow ho hq)
    (fun m q hlow _ hq => hnothing k m p q hlow hp hq) (by rwa [List.take_length]) hkept

/-! ## What the parsers decode -/

/-- The two parsers of a resolution agree. -/
structure Decoded (resolution : NativeResolution) (projected : ResolutionProjection) : Prop where
  resolutionId : projected.resolutionId = resolution.resolutionId
  operations : projected.appliedOperations = appliedOperations resolution.operations
  finite : ∀ o ∈ resolution.operations, o.value.isFinite = true
  wf : ∀ o ∈ resolution.operations, o.value.WF

lemma strictUtf8Json_wf {raw : Bytes} {message : String} {v : Json}
    (h : strictUtf8Json raw message = .ok v) : v.WF := by
  unfold strictUtf8Json at h
  split at h
  · split at h
    · rename_i value hparse
      obtain rfl := Except.ok.inj h
      exact parseText_wf hparse
    · simp at h
  · simp at h

lemma projectOperation_finite {index : ℕ} {operation : Json}
    (h : projectOperation index operation = .ok ()) :
    (operationOf operation).value.isFinite = true := by
  cases operation with
  | obj d =>
      simp only [projectOperation, bind_eq_ok, exists_unit, require_eq_ok] at h
      exact h.2.2.2.2
  | _ => simp [projectOperation] at h

lemma operationOf_wf {v : Json} (h : v.WF) : (operationOf v).value.WF := by
  cases v with
  | obj d =>
      show (Dict.getD d "value" .null).WF
      cases hget : Dict.get? d "value" with
      | none => simp [Dict.getD, hget, Json.WF]
      | some w => simpa [Dict.getD, hget] using h.get? hget
  | _ => exact trivial

/-- **What both parsers accept** they decode alike. -/
theorem decoded_of_parsers {raw : Bytes} {resolution : NativeResolution}
    {projected : ResolutionProjection} (hnative : nativeResolutionFromBytes raw = .ok resolution)
    (hprojected : nativeResolutionProjection raw = .ok projected) :
    Decoded resolution projected := by
  simp only [nativeResolutionFromBytes, bind_eq_ok] at hnative
  obtain ⟨value, hvalue, hnative⟩ := hnative
  have hwf := strictUtf8Json_wf hvalue
  simp only [nativeResolutionProjection, hvalue, ok_bind] at hprojected
  cases value with
  | obj d =>
      simp only [validateNativeResolution, bind_eq_ok, exists_unit, require_eq_ok,
        Except.ok.injEq] at hnative
      obtain ⟨-, -, -, -, -, operations, hoperations, rfl⟩ := hnative
      simp only [projectResolution, bind_eq_ok, exists_unit, require_eq_ok] at hprojected
      obtain ⟨-, -, hprojected⟩ := hprojected
      cases hlist : Dict.getD d "operations" .null with
      | arr items =>
          rw [hlist] at hoperations hprojected
          simp only [validateNativeResolutionOperations, bind_eq_ok, exists_unit,
            Except.ok.injEq] at hoperations
          obtain ⟨-, -, rfl⟩ := hoperations
          simp only [bind_eq_ok, exists_unit, require_eq_ok, Except.ok.injEq] at hprojected
          obtain ⟨-, hloop, rfl⟩ := hprojected
          have hitems : ∀ item ∈ items, item.WF := by
            have hget : Dict.get? d "operations" = some (.arr items) := by
              cases hget : Dict.get? d "operations" with
              | none => simp [Dict.getD, hget] at hlist
              | some w => simpa [Dict.getD, hget] using hlist
            exact Json.wf_arr.mp (hwf.get? hget)
          refine ⟨rfl, rfl, fun o ho => ?_, fun o ho => ?_⟩
          · obtain ⟨item, hitem, rfl⟩ := List.mem_map.mp ho
            obtain ⟨j, hj⟩ := enumerateM_unit hloop item hitem
            exact projectOperation_finite hj
          · obtain ⟨item, hitem, rfl⟩ := List.mem_map.mp ho
            exact operationOf_wf (hitems item hitem)
      | _ => simp [hlist, valueError] at hprojected
  | _ => simp [validateNativeResolution, valueError] at hnative

/-! ## What the lineage stores -/

section Material

variable {run : Replay} {raw : Bytes} {hashes : ReplayHashes}

lemma nativeReplayItems_keys (run : Replay) (raw : Bytes) (hashes : ReplayHashes) :
    (nativeReplayItems run raw hashes).map Prod.fst = nativeReplayMaterialKeys := by
  have hlength : nativeReplayHashFields.length ≤ (hashes.hashes.map Json.str).length := by
    rw [List.length_map, hashes.complete]
  rw [nativeReplayItems, List.map_append, List.map_append, List.map_map, List.map_fst_zip hlength]
  rfl

lemma nativeReplayMaterialKeys_nodup : nativeReplayMaterialKeys.Nodup := by decide +kernel

/-- The material holds its items. -/
lemma material_get? {key : String} {v : Json} (h : (key, v) ∈ nativeReplayItems run raw hashes) :
    (nativeReplayMaterial run raw hashes).get? key = some v := by
  have hnodup : ((nativeReplayItems run raw hashes).map Prod.fst).Nodup := by
    rw [nativeReplayItems_keys]
    exact nativeReplayMaterialKeys_nodup
  rw [nativeReplayMaterial, Dict.get?_ofList_of_mem hnodup h]

lemma material_getD {key : String} {v : Json} (h : (key, v) ∈ nativeReplayItems run raw hashes) :
    (nativeReplayMaterial run raw hashes).getD key .null = v := by
  rw [Dict.getD, material_get? h, Option.getD_some]

lemma material_keys (run : Replay) (raw : Bytes) (hashes : ReplayHashes) :
    HasExactKeys (nativeReplayMaterial run raw hashes) nativeReplayMaterialKeys := by
  have hkeys := nativeReplayItems_keys run raw hashes
  have hnodup : ((nativeReplayItems run raw hashes).map Prod.fst).Nodup := by
    rw [hkeys]
    exact nativeReplayMaterialKeys_nodup
  have hmem := fun key => Dict.mem_keys_ofList hnodup key
  rw [hkeys] at hmem
  exact ⟨fun key hkey => (hmem key).mp hkey, fun key hkey => (hmem key).mpr hkey⟩

lemma mem_zip_hashes {key : String} (h : key ∈ nativeReplayHashFields) (hashes : ReplayHashes) :
    ∃ hash, isLowercaseSha256 hash = true ∧
      (key, Json.str hash) ∈ nativeReplayHashFields.zip (hashes.hashes.map .str) := by
  obtain ⟨i, hi, rfl⟩ := List.mem_iff_getElem.mp h
  have hlength := hashes.complete
  have hi' : i < hashes.hashes.length := by omega
  refine ⟨hashes.hashes[i], hashes.digests _ (List.getElem_mem hi'), ?_⟩
  refine List.mem_iff_getElem.mpr ⟨i, ?_, ?_⟩
  · rw [List.length_zip, List.length_map]
    omega
  · rw [List.getElem_zip, List.getElem_map]

lemma appliedOperations_mem {operations : List Operation} {v : Json}
    (h : v ∈ appliedOperations operations) :
    ∃ i, ∃ o ∈ operations, v = appliedOperation i o := by
  obtain ⟨i, hi, rfl⟩ := List.mem_mapIdx.mp h
  exact ⟨i, operations[i], List.getElem_mem hi, rfl⟩

lemma appliedOperation_wf {i : ℕ} {o : Operation} (h : o.value.WF) :
    (appliedOperation i o).WF := by
  have hvalue : (Json.obj (Dict.ofList [("present", .bool true), ("json", o.value)])).WF :=
    Json.wf_ofList (by simp [h, Json.WF])
  refine Json.wf_ofList fun e he => ?_
  simp only [List.mem_cons, List.not_mem_nil, or_false] at he
  rcases he with rfl | rfl | rfl | rfl | rfl | rfl
  case inr.inr.inr.inr.inr => exact hvalue
  all_goals trivial

lemma appliedOperation_finite {i : ℕ} {o : Operation} (h : o.value.isFinite = true) :
    (appliedOperation i o).isFinite = true := by
  have hvalue : (Json.obj (Dict.ofList [("present", .bool true), ("json", o.value)])).isFinite =
      true := isFinite_ofList (by simp [h, Json.isFinite])
  refine isFinite_ofList fun e he => ?_
  simp only [List.mem_cons, List.not_mem_nil, or_false] at he
  rcases he with rfl | rfl | rfl | rfl | rfl | rfl
  case inr.inr.inr.inr.inr => exact hvalue
  all_goals rfl

lemma mem_nativeReplayItems {e : String × Json} :
    e ∈ nativeReplayItems run raw hashes ↔
      (∃ c ∈ nativeReplayConstantFields, (c.1, Json.str c.2) = e) ∨
      e = ("native_resolution_blob", .obj (resolutionBlob raw)) ∨
      e = ("resolution_id", .str run.resolution.resolutionId) ∨
      e = ("applied_operations", .arr (appliedOperations run.materialOperations)) ∨
      e ∈ nativeReplayHashFields.zip (hashes.hashes.map .str) := by
  simp only [nativeReplayItems, List.mem_append, List.mem_map, List.mem_cons, List.not_mem_nil,
    or_false, or_assoc]

lemma resolutionBlob_keys (raw : Bytes) :
    HasExactKeys (resolutionBlob raw) ["source_hash", "size_bytes"] := by
  have hnodup : ([("source_hash", Json.str (sha256Bytes raw)),
      ("size_bytes", .int raw.length)].map Prod.fst).Nodup := by simp
  have hmem := fun key => Dict.mem_keys_ofList hnodup key
  exact ⟨fun key hkey => (hmem key).mp hkey, fun key hkey => (hmem key).mpr hkey⟩

/-- Operations that can be written as text make a material that can. -/
lemma material_writable (raw : Bytes) (hashes : ReplayHashes)
    (h : ∀ o ∈ run.materialOperations, o.value.WF ∧ o.value.isFinite = true) :
    (Json.obj (nativeReplayMaterial run raw hashes)).WF ∧
      (Json.obj (nativeReplayMaterial run raw hashes)).isFinite = true := by
  have hitems : ∀ e ∈ nativeReplayItems run raw hashes, e.2.WF ∧ e.2.isFinite = true := by
    intro e he
    rcases mem_nativeReplayItems.mp he with ⟨c, -, rfl⟩ | rfl | rfl | rfl | hzip
    · exact ⟨trivial, rfl⟩
    · exact ⟨Json.wf_ofList (by simp [Json.WF]), isFinite_ofList (by simp [Json.isFinite])⟩
    · exact ⟨trivial, rfl⟩
    · refine ⟨Json.wf_arr.mpr fun v hv => ?_, isFinite_arr.mpr fun v hv => ?_⟩
      · obtain ⟨i, o, ho, rfl⟩ := appliedOperations_mem hv
        exact appliedOperation_wf (h o ho).1
      · obtain ⟨i, o, ho, rfl⟩ := appliedOperations_mem hv
        exact appliedOperation_finite (h o ho).2
    · obtain ⟨hash, -, hhash⟩ := List.mem_map.mp (List.of_mem_zip hzip).2
      rw [← hhash]
      exact ⟨trivial, rfl⟩
  exact ⟨Json.wf_ofList fun e he => (hitems e he).1, isFinite_ofList fun e he => (hitems e he).2⟩

/-- **The check of the material** comes down to its operations. -/
theorem validateNativeReplayMaterial_eq {projected : ResolutionProjection}
    (hprojected : nativeResolutionProjection raw = .ok projected)
    (hid : projected.resolutionId = run.resolution.resolutionId)
    (h : ∀ o ∈ run.materialOperations, o.value.WF ∧ o.value.isFinite = true) :
    validateNativeReplayMaterial (nativeReplayMaterial run raw hashes) raw =
      if pyEq (.arr (appliedOperations run.materialOperations)) (.arr projected.appliedOperations)
        = true
      then .ok (nativeReplayMaterial run raw hashes)
      else valueError "native replay operations differ from raw bytes" := by
  have hmem := fun e : String × Json =>
    (mem_nativeReplayItems : e ∈ nativeReplayItems run raw hashes ↔ _).mpr
  have hconstants : forEach (fun entry => require
      ((nativeReplayMaterial run raw hashes).getD entry.1 .null = .str entry.2)
      s!"native replay material {entry.1} is inconsistent") nativeReplayConstantFields =
        .ok () := by
    rw [forEach_eq_ok]
    intro c hc
    rw [require_eq_ok]
    exact material_getD (hmem _ (Or.inl ⟨c, hc, rfl⟩))
  have hhashes : forEach (fun key => sourceLowerHash
      ((nativeReplayMaterial run raw hashes).getD key .null) s!"native replay material {key}")
      nativeReplayHashFields = .ok () := by
    rw [forEach_eq_ok]
    intro key hkey
    obtain ⟨hash, hsha, hzip⟩ := mem_zip_hashes hkey hashes
    rw [material_getD (hmem _ (Or.inr (Or.inr (Or.inr (Or.inr hzip))))), sourceLowerHash,
      require_eq_ok]
    exact hsha
  have hblob : (nativeReplayMaterial run raw hashes).dictAt "native_resolution_blob" =
      resolutionBlob raw := Dict.dictAt_eq (material_get? (hmem _ (Or.inr (Or.inl rfl))))
  have hresolution := material_getD (hmem _ (Or.inr (Or.inr (Or.inl rfl))))
  have happlied := material_getD (hmem _ (Or.inr (Or.inr (Or.inr (Or.inl rfl)))))
  obtain ⟨hwf, hfinite⟩ := material_writable raw hashes h
  have htext := dumps_eq_ok.mpr ⟨hfinite, rfl⟩
  have hread := loads_dumps ⟨true⟩ hwf htext
  have hidentity : (resolutionBlob raw).get? "source_hash" = some (.str (sha256Bytes raw)) ∧
      (resolutionBlob raw).get? "size_bytes" = some (.int raw.length) := by
    simp [resolutionBlob, Dict.ofList]
  simp only [validateNativeReplayMaterial, hconstants, hhashes, hblob, hresolution, happlied,
    hprojected, hid, htext, hread, ok_bind]
  simp only [require, material_keys, resolutionBlob_keys, hidentity, and_self, ↓reduceIte, ok_bind]
  split_ifs <;> rfl

/-- A material with the operations that the bytes are projected to passes its check. -/
lemma nativeReplayMaterial_valid {projected : ResolutionProjection}
    (hprojected : nativeResolutionProjection raw = .ok projected)
    (hid : projected.resolutionId = run.resolution.resolutionId)
    (h : ∀ o ∈ run.materialOperations, o.value.WF ∧ o.value.isFinite = true)
    (hoperations : appliedOperations run.materialOperations = projected.appliedOperations) :
    validateNativeReplayMaterial (nativeReplayMaterial run raw hashes) raw =
      .ok (nativeReplayMaterial run raw hashes) := by
  rw [validateNativeReplayMaterial_eq hprojected hid h, hoperations, if_pos (by simp [pyEq])]

end Material

/-! ## The replay -/

section Replaying

variable [PyUnicode]

lemma resolveCase_cells {case resolved : Dict} {resolutionId : String}
    {operations : List Operation} {context : ArtifactContext} {fuel : ℕ} {cells cells' : List Node}
    (h : resolveCaseFromArtifactContext case resolutionId operations context fuel cells =
      .ok (resolved, cells')) :
    ∃ heap, applySetOperations ⟨copyDocuments case, cells⟩ operations = .ok heap ∧
      heap.cells = cells' := by
  simp only [resolveCaseFromArtifactContext, bind_eq_ok, exists_unit, Except.ok.injEq,
    Prod.mk.injEq] at h
  obtain ⟨-, -, -, -, -, heap, hheap, -, -, -, -, -, hcells⟩ := h
  exact ⟨heap, hheap, hcells⟩

omit [PyUnicode] in
lemma currentOperations_eq_ok {fuel : ℕ} {cells : List Node} {operations current : List Operation} :
    currentOperations fuel cells operations = .ok current ↔
      readOperations fuel cells 0 operations = some current := by
  unfold currentOperations
  cases readOperations fuel cells 0 operations with
  | none => simp [valueError]
  | some c => simp

/-- **What a replay does with the operations**: it applies them twice, and reads them after each
application. -/
structure ReplayRun (context : SourceContext) (raw : Bytes) (run : Replay) (first second : Heap) :
    Prop where
  native : nativeResolutionFromBytes raw = .ok run.resolution
  applied : applySetOperations ⟨copyDocuments context.case, newCells run.resolution.operations⟩
    run.resolution.operations = .ok first
  appliedAgain : applySetOperations ⟨copyDocuments context.case, first.cells⟩
    run.resolution.operations = .ok second
  subject : readOperations (readFuel context.case run.resolution.operations) first.cells 0
    run.resolution.operations = some run.subjectOperations
  material : readOperations (readFuel context.case run.resolution.operations) second.cells 0
    run.resolution.operations = some run.materialOperations

theorem replayOperations_eq_ok {context : SourceContext} {artifacts : ArtifactContext}
    {raw : Bytes} {run : Replay} (h : replayOperations context artifacts raw = .ok run) :
    ∃ first second, ReplayRun context raw run first second := by
  simp only [replayOperations, replayResolution, bind_eq_ok, Except.ok.injEq] at h
  obtain ⟨resolution, hnative, -, -, ⟨subject, cells⟩, hsubject, ⟨resolved, cells'⟩, hresolve,
    material, hmaterial, rfl⟩ := h
  simp only [approvalSubjectOperations, prepareCase_current context.accepted, ok_bind, bind_eq_ok,
    exists_unit, Except.ok.injEq, Prod.mk.injEq] at hsubject
  obtain ⟨-, -, -, -, ⟨resolved₁, cells₁⟩, hresolve₁, current, hcurrent, rfl, rfl⟩ := hsubject
  obtain ⟨first, hfirst, rfl⟩ := resolveCase_cells hresolve₁
  obtain ⟨second, hsecond, rfl⟩ := resolveCase_cells hresolve
  exact ⟨first, second, hnative, hfirst, hsecond, currentOperations_eq_ok.mp hcurrent,
    currentOperations_eq_ok.mp hmaterial⟩

/-- The operations in the approval subject, in the material and in the lineage are those decoded
from the raw resolution, and no step of either application alters the list. -/
structure OperationsKept (context : SourceContext) (raw : Bytes) (hashes : ReplayHashes)
    (projected : ResolutionProjection) (run : Replay) : Prop where
  subject : run.subjectOperations = run.resolution.operations
  material : (nativeReplayMaterial run raw hashes).get? "applied_operations" =
    some (.arr projected.appliedOperations)
  lineage : ∃ d, validateNativeReplayMaterial (nativeReplayMaterial run raw hashes) raw = .ok d ∧
    d.get? "applied_operations" = some (.arr projected.appliedOperations)
  first : KeptThroughout context.case run.resolution.operations
    (newCells run.resolution.operations)
  second : ∀ heap, applySetOperations
      ⟨copyDocuments context.case, newCells run.resolution.operations⟩
      run.resolution.operations = .ok heap →
    KeptThroughout context.case run.resolution.operations heap.cells

/-- The operations of a run are kept exactly when they are consistent. -/
lemma operationsKept_iff {context : SourceContext} {raw : Bytes} {projected : ResolutionProjection}
    {run : Replay} {first second : Heap} (hashes : ReplayHashes)
    (hprojected : nativeResolutionProjection raw = .ok projected)
    (hrun : ReplayRun context raw run first second) :
    OperationsKept context raw hashes projected run ↔
      ConsistentOperations run.resolution.operations := by
  have hdecoded := decoded_of_parsers hrun.native hprojected
  constructor
  · intro hkept
    exact consistent_of_keptThroughout hrun.applied hkept.first
  · intro hconsistent
    have hfirst := keptThroughout_of_consistent hconsistent
      (unaltered_newCells context.case hdecoded.wf)
    have hafter := hfirst run.resolution.operations.length first
      (by rw [List.take_length]; exact hrun.applied)
    have hsecond := keptThroughout_of_consistent hconsistent hafter
    have hend := hsecond run.resolution.operations.length second
      (by rw [List.take_length]; exact hrun.appliedAgain)
    have hmaterial : run.materialOperations = run.resolution.operations :=
      Option.some.inj (hrun.material.symm.trans hend)
    have hstored : (nativeReplayMaterial run raw hashes).get? "applied_operations" =
        some (.arr projected.appliedOperations) := by
      rw [hdecoded.operations, ← hmaterial]
      exact material_get? (mem_nativeReplayItems.mpr (Or.inr (Or.inr (Or.inr (Or.inl rfl)))))
    refine ⟨Option.some.inj (hrun.subject.symm.trans hafter), hstored,
      ⟨nativeReplayMaterial run raw hashes, ?_, hstored⟩, hfirst, ?_⟩
    · refine nativeReplayMaterial_valid hprojected hdecoded.resolutionId ?_ ?_
      · rw [hmaterial]
        exact fun o ho => ⟨hdecoded.wf o ho, hdecoded.finite o ho⟩
      · rw [hmaterial, hdecoded.operations]
    · intro heap hheap
      obtain rfl := Except.ok.inj (hheap.symm.trans hrun.applied)
      exact hsecond

/-- **The applied operations are the approved operations** exactly when they are consistent; where
no operation replaces an earlier value, the approval subject alone tells. -/
theorem replay_keeps_operations_iff {context : SourceContext} {artifacts : ArtifactContext}
    {raw : Bytes} {projected : ResolutionProjection} {run : Replay} (hashes : ReplayHashes)
    (hprojected : nativeResolutionProjection raw = .ok projected)
    (hrun : replayOperations context artifacts raw = .ok run) :
    (OperationsKept context raw hashes projected run ↔
        ConsistentOperations run.resolution.operations) ∧
      (NothingReplaced run.resolution.operations →
        (run.subjectOperations = run.resolution.operations ↔
          ConsistentOperations run.resolution.operations)) := by
  obtain ⟨first, second, hrun⟩ := replayOperations_eq_ok hrun
  have hkept := operationsKept_iff hashes hprojected hrun
  refine ⟨hkept, fun hnothing => ⟨fun hsubject => ?_, fun h => (hkept.mpr h).subject⟩⟩
  have hstands : Unaltered (readFuel context.case run.resolution.operations) first.cells
      run.resolution.operations := hrun.subject.trans (congrArg some hsubject)
  exact consistent_of_unaltered hnothing hrun.applied hstands

end Replaying

/-! ## Two replays -/

lemma strictUtf8Json_jsonText {v : Json} (message : String) (hwf : v.WF)
    (hfinite : v.isFinite = true) :
    strictUtf8Json (encodeUtf8 (String.ofList (jsonText v))) message = .ok v := by
  have hread := loads_dumps ⟨true⟩ hwf (dumps_eq_ok.mpr ⟨hfinite, rfl⟩)
  have hparse : parseText ⟨true⟩ (jsonText v) = some v := by
    rw [loads, String.toList_ofList] at hread
    split at hread
    · rename_i w hw
      rw [hw, Except.ok.inj hread]
    · simp [valueError] at hread
  simp only [strictUtf8Json, decodeUtf8_encodeUtf8, String.toList_ofList, hparse]

section Ascii

attribute [local instance] asciiUnicode

/-- A set operation on the process flow. -/
def sampleOperation (path : String) (value : Json) : Json := .obj <| Dict.ofList
  [("op", .str "set"), ("document_id", .str "FLOW"), ("path", .str path), ("value", value)]

/-- A resolution with the given operations. -/
def sampleResolution (operations : List Json) : Json := .obj <| Dict.ofList
  [("resolution_id", .str "R-1"), ("description", .str "steps"),
   ("replacement_set_id", .str "RS-1"), ("operations", .arr operations)]

/-- Its bytes. -/
def sampleResolutionBytes (operations : List Json) : Bytes :=
  encodeUtf8 (String.ofList (jsonText (sampleResolution operations)))

/-- The mapping of a step of the flow to the cell it is read from. -/
def stepMapping (sourceHash : String) (index : ℕ) (step : String) : Json := .obj <| Dict.ofList
  [("mapping_kind", .str "DIRECT_CELL_VALUE"),
   ("conversion_contract", .str "qualityci-mapping-value-conversion-0.1"),
   ("target", .str s!"fields.process_steps[{index}]"), ("value", .str step),
   ("source", .obj <| Dict.ofList
     [("source_id", .str "SRC-FLOW"), ("document_id", .str "FLOW"),
      ("source_hash", .str sourceHash), ("locator", .str s!"CSV#row-{index + 2}.cell-A"),
      ("kind", .str "CELL"),
      ("coordinates", .obj <| Dict.ofList [("row", .int (index + 2)), ("column", .int 1)]),
      ("column", .str "process_step_id"), ("raw_value", .str step)])]

/-- The process flow, as it is read from a table of its steps. -/
def flowDocument (revision owner sourceHash : String) (size : ℤ) (steps : List String) : Dict :=
  Dict.ofList
    [("document_id", .str "FLOW"), ("document_type", .str "PROCESS_FLOW"),
     ("revision", .str revision), ("status", .str "APPROVED"), ("owner", .str owner),
     ("revision_date", .str "2026-02-01"), ("source_hash", .str sourceHash),
     ("source", .obj <| Dict.ofList
       [("filename", .str "flow.csv"), ("relative_path", .str "flow.csv"), ("format", .str "CSV"),
        ("size_bytes", .int size), ("ingestion_mode", .str "STANDARD_LIBRARY_CSV"),
        ("read_only", .bool true), ("content_executed", .bool false)]),
     ("fields", .obj <| Dict.ofList [("process_steps", .arr (steps.map .str))]),
     ("mapping_provenance", .arr (steps.mapIdx (stepMapping sourceHash)))]

/-- A document with the hash of its source. -/
def withSourceHash (document : Json) (digit : Char) : Json :=
  .obj <| (document.obj?.getD []).set "source_hash" (.str (String.ofList (List.replicate 64 digit)))

/-- The sample case with a flow. -/
def caseOfFlow (flow : Dict) : Dict := sampleCase (sampleEvent "LOW" [] []) <|
  .obj flow :: List.zipWith withSourceHash sampleDocuments.tail ['a', 'b', 'c', 'd']

/-- The second revision of the flow is read from the lines `process_step_id` and `S1`, which end
with a carriage return and a line feed. -/
def presentFlow (owner : String) : Dict :=
  flowDocument "2" owner "a4b9412b8dd4ed3f5207717e572bf39f169ea0d7d61904893989ff3145754cd6" 21
    ["S1"]

/-- The case with the second revision. -/
def sampleContext : SourceContext where
  case := caseOfFlow (presentFlow "QA")
  accepted := by decide +kernel

/-- A context with the flow rebuilt. -/
def sampleArtifacts (flow : Dict) : ArtifactContext := ⟨"RS-1", ["FLOW"], [flow]⟩

/-- The third revision of the flow is read from the same two lines, which end with a line feed. -/
def revisedFlow (owner : String) : Dict :=
  flowDocument "3" owner "4cd8e74b0d0d1e4bc513a7d38cffe8a033708624cf46c612618248061a68ede1" 19
    ["S1"]

def revisedArtifacts : ArtifactContext := sampleArtifacts (revisedFlow "QA")

/-- The rebuilt documents have other revisions and other sources than those they replace, as
`prepare_artifact_context` requires. -/
def Supersedes (context : ArtifactContext) (case : Dict) : Prop :=
  ∀ document ∈ context.documents, ∃ old ∈ case.rowsAt "documents",
    old.textAt "document_id" = document.textAt "document_id" ∧
      old.textAt "revision" ≠ document.textAt "revision" ∧
      old.textAt "source_hash" ≠ document.textAt "source_hash"

instance (context : ArtifactContext) (case : Dict) : Decidable (Supersedes context case) :=
  inferInstanceAs (Decidable (∀ document ∈ context.documents, ∃ old ∈ case.rowsAt "documents", _))

/-- The hashes of sealed contexts. -/
def sampleHashes : ReplayHashes where
  hashes := "0123456789a".toList.map fun digit => String.ofList (List.replicate 64 digit)
  complete := by decide
  digests := by decide +kernel

/-- The list of steps is set to what it is, and the revision to a new one. -/
def keptOperations : List Json :=
  [sampleOperation "fields.process_steps" (.arr [.str "S1"]),
   sampleOperation "revision" (.str "3")]

/-- The fields are set with two steps, then the steps to one, and the revision to a new one. -/
def nestedOperations : List Json :=
  [sampleOperation "fields" (.obj <| Dict.ofList [("process_steps", .arr [.str "S1", .str "S2"])]),
   sampleOperation "fields.process_steps" (.arr [.str "S1"]),
   sampleOperation "revision" (.str "3")]

/-- The nested operations as the two applications leave them. -/
def alteredOperations : List Operation :=
  [⟨"FLOW", "fields", .obj <| Dict.ofList [("process_steps", .arr [.str "S1"])]⟩,
   ⟨"FLOW", "fields.process_steps", .arr [.str "S1"]⟩, ⟨"FLOW", "revision", .str "3"⟩]

/-- What the parsers make of the bytes. -/
lemma sampleResolutionBytes_parsed {operations : List Json}
    (hwf : (sampleResolution operations).WF)
    (hfinite : (sampleResolution operations).isFinite = true) :
    nativeResolutionFromBytes (sampleResolutionBytes operations) =
        validateNativeResolution (sampleResolution operations) ∧
      nativeResolutionProjection (sampleResolutionBytes operations) =
        projectResolution (sampleResolution operations) := by
  have hread := fun message => strictUtf8Json_jsonText message hwf hfinite
  simp only [nativeResolutionFromBytes, nativeResolutionProjection, sampleResolutionBytes, hread,
    ok_bind, and_self]

/-- The run and the projection of a resolution with the given operations. -/
def replayed (operations : List Json) : Option (Replay × ResolutionProjection) := do
  let resolution ← (validateNativeResolution (sampleResolution operations)).toOption
  let run ← (replayResolution sampleContext revisedArtifacts resolution).toOption
  let projected ← (projectResolution (sampleResolution operations)).toOption
  some (run, projected)

lemma replayed_eq_some {operations : List Json} {run : Replay} {projected : ResolutionProjection}
    (hwf : (sampleResolution operations).WF)
    (hfinite : (sampleResolution operations).isFinite = true)
    (h : replayed operations = some (run, projected)) :
    nativeResolutionProjection (sampleResolutionBytes operations) = .ok projected ∧
      replayOperations sampleContext revisedArtifacts
        (sampleResolutionBytes operations) = .ok run := by
  obtain ⟨hnative, hprojected⟩ := sampleResolutionBytes_parsed hwf hfinite
  rw [replayOperations, hnative, hprojected]
  unfold replayed at h
  cases hresolution : validateNativeResolution (sampleResolution operations) with
  | error e => simp [hresolution, Except.toOption] at h
  | ok resolution =>
      cases hreplay : replayResolution sampleContext revisedArtifacts resolution with
      | error e => simp [hresolution, hreplay, Except.toOption] at h
      | ok r =>
          cases hproject : projectResolution (sampleResolution operations) with
          | error e => simp [hresolution, hproject, Except.toOption] at h
          | ok q =>
              simp only [hresolution, hreplay, hproject, Except.toOption, Option.bind_eq_bind,
                Option.bind_some, Option.some.injEq, Prod.mk.injEq] at h
              obtain ⟨rfl, rfl⟩ := h
              exact ⟨rfl, by rw [ok_bind, hreplay]⟩

theorem replay_keeps_operations_sample : Supersedes revisedArtifacts sampleContext.case ∧
    ∃ run projected,
      nativeResolutionProjection (sampleResolutionBytes keptOperations) = .ok projected ∧
      replayOperations sampleContext revisedArtifacts
        (sampleResolutionBytes keptOperations) = .ok run ∧
      (OperationsKept sampleContext (sampleResolutionBytes keptOperations) sampleHashes projected
          run ↔
        ConsistentOperations run.resolution.operations) ∧
      (NothingReplaced run.resolution.operations →
        (run.subjectOperations = run.resolution.operations ↔
          ConsistentOperations run.resolution.operations)) := by
  have hsome : (replayed keptOperations).isSome = true := by decide +kernel
  obtain ⟨⟨run, projected⟩, hreplayed⟩ := Option.isSome_iff_exists.mp hsome
  obtain ⟨hprojected, hrun⟩ := replayed_eq_some (by decide +kernel) (by decide +kernel) hreplayed
  exact ⟨by decide +kernel, run, projected, hprojected, hrun,
    replay_keeps_operations_iff sampleHashes hprojected hrun⟩

/-- **A replay that rejects its own material**: the second operation writes into the value of the
first, in the list that the subject and the material are read from. -/
theorem replay_rejects_its_material :
    Supersedes revisedArtifacts sampleContext.case ∧ ∃ run projected,
      nativeResolutionProjection (sampleResolutionBytes nestedOperations) = .ok projected ∧
      replayOperations sampleContext revisedArtifacts
        (sampleResolutionBytes nestedOperations) = .ok run ∧
      run.subjectOperations ≠ run.resolution.operations ∧
      appliedOperations run.materialOperations ≠ projected.appliedOperations ∧
      validateNativeReplayMaterial
        (nativeReplayMaterial run (sampleResolutionBytes nestedOperations) sampleHashes)
        (sampleResolutionBytes nestedOperations) =
          valueError "native replay operations differ from raw bytes" := by
  have hvalues : (replayed nestedOperations).map (fun r =>
      (r.1.resolution.operations, r.1.subjectOperations, r.1.materialOperations)) =
      some (nestedOperations.map operationOf, alteredOperations, alteredOperations) := by
    decide +kernel
  obtain ⟨⟨run, projected⟩, hreplayed, hlists⟩ := Option.map_eq_some_iff.mp hvalues
  obtain ⟨hprojected, hrun⟩ := replayed_eq_some (by decide +kernel) (by decide +kernel) hreplayed
  obtain ⟨first, second, hsteps⟩ := replayOperations_eq_ok hrun
  have hdecoded := decoded_of_parsers hsteps.native hprojected
  simp only [Prod.mk.injEq] at hlists
  obtain ⟨hoperations, hsubject, hmaterial⟩ := hlists
  refine ⟨by decide +kernel, run, projected, hprojected, hrun, ?_, ?_, ?_⟩
  · rw [hsubject, hoperations]
    decide +kernel
  · rw [hmaterial, hdecoded.operations, hoperations]
    decide +kernel
  · have hwritable : ∀ o ∈ run.materialOperations, o.value.WF ∧ o.value.isFinite = true := by
      rw [hmaterial]
      decide +kernel
    have hdiffers : ¬pyEq (.arr (appliedOperations run.materialOperations))
        (.arr projected.appliedOperations) = true := by
      rw [hmaterial, hdecoded.operations, hoperations]
      decide +kernel
    rw [validateNativeReplayMaterial_eq hprojected hdecoded.resolutionId hwritable, if_neg hdiffers]

end Ascii

end QualityCI
