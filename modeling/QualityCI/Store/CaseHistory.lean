import QualityCI.Lib.Keyed
import QualityCI.Store.AuditChain

/-!
# The audit of saved cases

A store that cases have been saved into, and nothing else: each case that was inserted has left one
event, and the verifier reads the table of cases to check them.

* `caseEntityIsValid`, `caseIsCovered`, `payloadIsExact` — the semantic checks of a case.
* `caseTables` — a table of cases, as the verifier reads it.
* `saveCases` — any sequence of saves.
* `Registers` — the events register the rows, one after the other.
* **`savedCases_audit`** — after any sequence of saves the verifier accepts the table of cases that
  they left, in any order, and no other one; and of the tables with a resolved case none.
-/

namespace QualityCI

open Py

/-! ## The semantic checks -/

/-- `except (KeyError, TypeError, ValueError)`. -/
def semanticErrors (cls : ErrorClass) : Prop :=
  cls.isA .keyError = true ∨ cls.isA .typeError = true ∨ cls.isA .valueError = true

instance : DecidablePred semanticErrors := fun _ => inferInstanceAs (Decidable (_ ∨ _))

/-- A check that is failed by an exception of the handled classes. -/
def failing (handled : ErrorClass → Prop) [DecidablePred handled] : Result Bool → Result Bool
  | .ok b => .ok b
  | .error e => if handled e.cls then .ok false else .error e

/-- The checks of some items, in their order, to the first one that fails. -/
def allEach {α : Type} (check : α → Result Bool) : List α → Result Bool
  | [] => .ok true
  | x :: xs => do
      let passed ← check x
      if passed then allEach check xs else .ok false

/-- The primary key. -/
def CaseRow.key (row : CaseRow) : String × String := (row.caseId, row.caseHash)

/-- The primary key, in the payload of an event. -/
def CaseRow.auditKey (row : CaseRow) : List Json := [.str row.caseId, .str row.caseHash]

section Checks

variable [PyUnicode]

/-- `_case_entity_is_semantically_valid`. -/
def caseEntityIsValid (row : CaseRow) : Result Bool :=
  failing semanticErrors do
    let case ← loads ⟨true⟩ row.payloadJson
    match case with
    | .obj case => do
        validateCaseDict case
        if Dict.get? case "case_id" = some (.str row.caseId) then do
          let caseHash ← canonicalHash (.obj case)
          let synthetic :=
            if Dict.get? case "synthetic_for_competition" = some (.bool true) then 1 else 0
          .ok (decide (caseHash = row.caseHash ∧ synthetic = row.synthetic))
        else .ok false
    | _ => .ok false

/-- One case, in the loop of `_replay_admission_coverage_is_complete`.  A case that a resolution has
been applied to needs the row of an artifact set, and there is none. -/
def caseIsCovered (row : CaseRow) : Result Bool :=
  failing semanticErrors do
    let valid ← caseEntityIsValid row
    if valid then do
      let case ← loads ⟨true⟩ row.payloadJson
      match case with
      | .obj case => .ok (decide (Dict.getD case "applied_resolution" .null = .null))
      | _ => attributeError "the case has no attribute 'get'"
    else .ok false

omit [PyUnicode] in
/-- The check of a payload that was parsed, in `verify_audit_chain`; what has been read has exact
types. -/
def payloadIsExact (row : CaseRow) : Result Bool :=
  failing rebuildErrors do
    let value ← loads ⟨true⟩ row.payloadJson
    let text ← dumps value
    .ok (decide (text = row.payloadJson))

/-- A table of cases, as the verifier reads it in a store whose other tables are empty.  What it gets
for other keys than two texts, or in another table, is given. -/
def caseTables (cases : List CaseRow) (profile : Bool)
    (others : AuditTable → List Json → Result (Option CaseRow)) : StoredTables CaseRow where
  hasCaseSources := profile
  entity
    | .cases, [.str caseId, .str caseHash] =>
        .ok (Keyed.lookup CaseRow.key cases (caseId, caseHash))
    | table, key => others table key
  fingerprint row := fingerprint row.entity
  isValid
    | .cases, row => caseEntityIsValid row
    | _, _ => .ok false
  businessKeys
    | .cases => cases.map CaseRow.auditKey
    | _ => []
  sourcesCovered := .ok true
  admissionsCovered := allEach caseIsCovered cases
  payloadsExact := allEach payloadIsExact cases

/-! ## The history -/

variable {Tables : Type}

/-- Any sequence of saves, each at its time; one that raises changes nothing. -/
def saveCases : List (String × Dict) → Store Tables → Store Tables
  | [], s => s
  | (now, case) :: rest, s => saveCases rest (saveCase now case s).2

omit [PyUnicode] in
/-- The events as rows of their table, with their sequence numbers. -/
def numberedRows : ℤ → List AuditEvent → List AuditRow
  | _, [] => []
  | sequence, event :: rest =>
      { event with sequence := sequence } :: numberedRows (sequence + 1) rest

/-- No resolution has been applied to the case in a row. -/
def CaseRow.Unresolved (row : CaseRow) : Prop :=
  ∃ case : Dict, loads ⟨true⟩ row.payloadJson = .ok (.obj case) ∧
    case.getD "applied_resolution" .null = .null

/-- A row of an accepted case. -/
def CaseRow.Accepted (row : CaseRow) : Prop :=
  ∃ prepared : Dict, (Json.obj prepared).WF ∧ validateCaseDict prepared = .ok () ∧
    caseRow prepared = .ok row

/-- The payload of the event that registers a row. -/
def registration (row : CaseRow) (entityFingerprint : String) : Dict := Dict.ofList
  [("primary_key", .obj <| Dict.ofList
      [("case_id", .str row.caseId), ("case_hash", .str row.caseHash)]),
   ("entity_fingerprint", .str entityFingerprint)]

/-- An event registers a row. -/
structure RegistersCase (previousHash : String) (event : AuditEvent) (row : CaseRow) : Prop where
  header : event.entityType = "case" ∧ event.entityId = s!"{row.caseId}@{row.caseHash}" ∧
    event.action = "CASE_REGISTERED"
  previous : event.previousHash = previousHash
  hash : event.eventHash = sha256Hex ("|".intercalate [event.previousHash, event.createdAt,
    event.entityType, event.entityId, event.action, event.payloadJson])
  payload : ∃ entityFingerprint, fingerprint row.entity = .ok entityFingerprint ∧
    dumps (.obj (registration row entityFingerprint)) = .ok event.payloadJson

/-- The events register the rows, one after the other. -/
def Registers : String → List AuditEvent → List CaseRow → Prop
  | _, [], [] => True
  | previousHash, event :: events, row :: rows =>
      RegistersCase previousHash event row ∧ Registers event.eventHash events rows
  | _, _, _ => False

/-- What every sequence of saves leaves. -/
structure Registered (s : Store Tables) : Prop where
  keys : (s.cases.map CaseRow.key).Nodup
  accepted : ∀ row ∈ s.cases, row.Accepted
  events : Registers "GENESIS" s.auditEvents s.cases

/-! ## A saved row passes its checks -/

omit [PyUnicode] in
lemma failing_eq_true {handled : ErrorClass → Prop} [DecidablePred handled] {x : Result Bool} :
    failing handled x = .ok true ↔ x = .ok true := by
  cases x with
  | ok b => rfl
  | error e =>
      rw [failing]
      split_ifs <;> simp

omit [PyUnicode] in
lemma allEach_eq_true {α : Type} {check : α → Result Bool} {xs : List α} :
    allEach check xs = .ok true ↔ ∀ x ∈ xs, check x = .ok true := by
  induction xs with
  | nil => simp [allEach]
  | cons x xs ih =>
      rw [allEach, List.forall_mem_cons, ← ih, bind_eq_ok]
      constructor
      · rintro ⟨passed, hx, hrest⟩
        cases passed with
        | false => simp at hrest
        | true => exact ⟨hx, hrest⟩
      · rintro ⟨hx, hrest⟩
        exact ⟨true, hx, hrest⟩

/-- The columns of an accepted row. -/
lemma caseRow_columns {prepared : Dict} {row : CaseRow} (hvalid : validateCaseDict prepared = .ok ())
    (hrow : caseRow prepared = .ok row) :
    prepared.get? "case_id" = some (.str row.caseId) ∧
      canonicalHash (.obj prepared) = .ok row.caseHash ∧
      (if prepared.get? "synthetic_for_competition" = some (.bool true) then 1 else 0) =
        row.synthetic := by
  obtain ⟨hid, -⟩ := (validateCase_accepted hvalid).caseId
  simp only [caseRow, bind_eq_ok, Dict.getItem_eq_ok, Except.ok.injEq] at hrow
  obtain ⟨payload, -, id, hget, caseHash, hhash, rfl⟩ := hrow
  rw [hid, Option.some.injEq] at hget
  subst hget
  exact ⟨hid, hhash, rfl⟩

lemma caseEntityIsValid_accepted {row : CaseRow} (h : row.Accepted) :
    caseEntityIsValid row = .ok true := by
  obtain ⟨prepared, hwf, hvalid, hrow⟩ := h
  obtain ⟨hid, hhash, hsynthetic⟩ := caseRow_columns hvalid hrow
  rw [caseEntityIsValid, failing_eq_true, loads_payload hwf hrow ⟨true⟩]
  simp only [ok_bind, hvalid, hid, hhash, hsynthetic, ↓reduceIte]
  simp

lemma payloadIsExact_accepted {row : CaseRow} (h : row.Accepted) : payloadIsExact row = .ok true := by
  obtain ⟨prepared, hwf, hvalid, hrow⟩ := h
  rw [payloadIsExact, failing_eq_true, loads_payload hwf hrow ⟨true⟩]
  simp only [ok_bind, caseRow_payload hrow]
  simp

/-- Coverage asks whether a resolution has been applied. -/
lemma caseIsCovered_iff {row : CaseRow} (h : row.Accepted) :
    caseIsCovered row = .ok true ↔ row.Unresolved := by
  have hentity := caseEntityIsValid_accepted h
  obtain ⟨prepared, hwf, hvalid, hrow⟩ := h
  have hloads := loads_payload hwf hrow ⟨true⟩
  rw [caseIsCovered, failing_eq_true, hentity, hloads]
  simp only [ok_bind, ↓reduceIte, Except.ok.injEq, decide_eq_true_eq]
  constructor
  · intro hnull
    exact ⟨prepared, hloads, hnull⟩
  · rintro ⟨case, hcase, hnull⟩
    rw [hloads] at hcase
    obtain rfl := Json.obj.inj (Except.ok.inj hcase)
    exact hnull

/-! ## One event -/

omit [PyUnicode] in
/-- The payload of a registration is read back. -/
lemma auditPayload_registration {row : CaseRow} {entityFingerprint text : String}
    (h : dumps (.obj (registration row entityFingerprint)) = .ok text) :
    auditPayload text = some (.obj (Dict.ofList
      [("case_id", .str row.caseId), ("case_hash", .str row.caseHash)]), .str entityFingerprint) := by
  have hkey : ∀ e ∈ Dict.ofList [("case_id", Json.str row.caseId), ("case_hash", .str row.caseHash)],
      Repaired (jsonText e.2) := by
    intro e he
    have hentry := Dict.mem_ofList he
    simp only [List.mem_cons, List.not_mem_nil, or_false] at hentry
    rcases hentry with rfl | rfl
    · exact repaired_stringText _
    · exact repaired_stringText _
  have hrepaired : Repaired (jsonText (.obj (registration row entityFingerprint))) := by
    refine repaired_obj fun e he => ?_
    have hentry := Dict.mem_ofList he
    simp only [List.mem_cons, List.not_mem_nil, or_false] at hentry
    rcases hentry with rfl | rfl
    · exact repaired_obj hkey
    · exact repaired_stringText _
  have hprimary : (Json.obj (Dict.ofList
      [("case_id", .str row.caseId), ("case_hash", .str row.caseHash)])).WF :=
    Json.wf_ofList (by simp [Json.WF])
  have hwf : (Json.obj (registration row entityFingerprint)).WF :=
    Json.wf_ofList (List.forall_mem_cons.mpr ⟨hprimary, by simp [Json.WF]⟩)
  have hread := loadsAny_dumps hwf hrepaired h
  have hget : ∀ key, (registration row entityFingerprint).get? key = List.lookup key
      [("primary_key", .obj (Dict.ofList
          [("case_id", .str row.caseId), ("case_hash", .str row.caseHash)])),
       ("entity_fingerprint", .str entityFingerprint)] :=
    fun key => Dict.get?_ofList (by simp) key
  simp only [auditPayload, hread, Except.toOption, Option.bind_eq_bind, Option.bind_some,
    Json.obj?, hget]
  rfl

omit [PyUnicode] in
lemma sameKeys_auditKey {row row' : CaseRow} :
    sameKeys row.auditKey row'.auditKey = true ↔ row.key = row'.key := by
  simp [sameKeys, CaseRow.auditKey, CaseRow.key, sameKey, numberOf]

omit [PyUnicode] in
lemma memKeys_auditKey {row : CaseRow} {rows : List CaseRow} :
    memKeys row.auditKey (rows.map CaseRow.auditKey) = true ↔ row.key ∈ rows.map CaseRow.key := by
  simp only [memKeys, List.any_map, List.any_eq_true, Function.comp_apply, sameKeys_auditKey,
    List.mem_map]
  constructor
  · rintro ⟨row', hin, hsame⟩
    exact ⟨row', hin, hsame.symm⟩
  · rintro ⟨row', hin, hsame⟩
    exact ⟨row', hin, hsame.symm⟩

omit [PyUnicode] in
/-- The keys that are registered once some rows have been. -/
def registeredKeys (rows : List CaseRow) : AuditedKeys :=
  (rows.map fun row => (AuditTable.cases, row.auditKey)).reverse

omit [PyUnicode] in
lemma registeredKeys_of (rows : List CaseRow) (table : AuditTable) :
    (registeredKeys rows).of table =
      if table = .cases then (rows.map CaseRow.auditKey).reverse else [] := by
  rw [AuditedKeys.of, registeredKeys, List.filter_reverse, List.map_reverse]
  split_ifs with h
  · rw [h, List.filter_eq_self.mpr (by simp), List.map_map]
    rfl
  · rw [List.filter_eq_nil_iff.mpr]
    · rfl
    · intro entry hentry
      obtain ⟨row, -, rfl⟩ := List.mem_map.mp hentry
      simpa using Ne.symm h

/-- **One event** passes where the table has the row that it registers. -/
lemma verifyEvent_registered {cases : List CaseRow} {profile semantic : Bool}
    {others : AuditTable → List Json → Result (Option CaseRow)} {sequence : ℤ}
    {previousHash : String} {seen : List CaseRow} {audited : AuditedKeys} {event : AuditEvent}
    {row : CaseRow} (h : RegistersCase previousHash event row) (haccepted : row.Accepted)
    (hnew : row.key ∉ seen.map CaseRow.key)
    (hsha : ∀ current ∈ cases, fingerprint row.entity = fingerprint current.entity → row = current) :
    verifyEvent (caseTables cases profile others) semantic sequence previousHash
        (registeredKeys seen) { event with sequence := sequence } = .ok (some audited) ↔
      Keyed.lookup CaseRow.key cases row.key = some row ∧
        audited = registeredKeys (seen ++ [row]) := by
  obtain ⟨entityFingerprint, hprint, hpayload⟩ := h.payload
  obtain ⟨htype, hid, haction⟩ := h.header
  have hpayload' := auditPayload_registration hpayload
  have htable : auditActions.lookup event.action = some .cases := by
    rw [haction]
    decide
  have hget : ∀ key, (Dict.ofList [("case_id", Json.str row.caseId),
      ("case_hash", .str row.caseHash)]).get? key =
        List.lookup key [("case_id", .str row.caseId), ("case_hash", .str row.caseHash)] :=
    fun key => Dict.get?_ofList (by simp) key
  have hkey : AuditTable.keyOf .cases (Dict.ofList
      [("case_id", .str row.caseId), ("case_hash", .str row.caseHash)]) = row.auditKey := by
    simp only [AuditTable.keyOf, AuditTable.keyColumns, List.map_cons, List.map_nil, Dict.getD, hget]
    rfl
  have hentity : (caseTables cases profile others).entity .cases row.auditKey =
      .ok (Keyed.lookup CaseRow.key cases row.key) := rfl
  have hentityId : event.entityId = auditEntityId row.auditKey := by
    rw [hid]
    simp only [auditEntityId, CaseRow.auditKey, List.map_cons, List.map_nil, Json.toStr,
      String.intercalate_cons_cons, String.intercalate_singleton]
    rfl
  have hmem : memKeys row.auditKey ((registeredKeys seen).of .cases) = false := by
    rw [registeredKeys_of, if_pos rfl, ← List.map_reverse, Bool.eq_false_iff, Ne, memKeys_auditKey,
      List.map_reverse, List.mem_reverse]
    exact hnew
  have hseed : event.eventHash = sha256Hex (auditSeed { event with sequence := sequence }) := h.hash
  simp only [verifyEvent, passing_eq_some, h.previous, ← hseed, hpayload', htable, gettable, ok_bind,
    hkey, hentity]
  cases hlookup : Keyed.lookup CaseRow.key cases row.key with
  | none => simp
  | some current =>
      have hcurrent := (Keyed.mem_of_lookup hlookup).1
      have hplain : ¬(AuditTable.cases ∈ AuditTable.caseSource ∧
          (caseTables cases profile others).hasCaseSources = false) := fun h => absurd h.1 (by decide)
      have hhashable : forEach requireHashable row.auditKey = .ok () := rfl
      have hprints : (caseTables cases profile others).fingerprint current =
        fingerprint current.entity := rfl
      have hvalid : (caseTables cases profile others).isValid .cases current =
        caseEntityIsValid current := rfl
      have happended : registeredKeys (seen ++ [row]) =
          (.cases, row.auditKey) :: registeredKeys seen := by
        simp [registeredKeys]
      rw [happended]
      simp only [if_neg hplain, hhashable, hprints, hvalid, hmem, fingerprint_entity, ok_bind,
        passing_eq_some, htype, hentityId, AuditTable.entityType, Option.some.injEq, true_and]
      constructor
      · rintro ⟨hsame, hchecked⟩
        obtain rfl := hsha current hcurrent (by rw [hprint, Json.str.inj hsame, fingerprint_entity])
        rw [caseEntityIsValid_accepted haccepted] at hchecked
        refine ⟨rfl, ?_⟩
        cases semantic with
        | false => simpa [passing] using hchecked.symm
        | true => simpa [passing, ok_bind] using hchecked.symm
      · rintro ⟨rfl, rfl⟩
        rw [fingerprint_entity, Except.ok.injEq] at hprint
        refine ⟨by rw [hprint], ?_⟩
        rw [caseEntityIsValid_accepted haccepted]
        cases semantic with
        | false => simp [passing]
        | true => simp [passing, ok_bind]

/-! ## The whole chain -/

/-- **The loop** passes where the table has every row that the events register. -/
lemma verifyEvents_registered {cases : List CaseRow} {profile semantic : Bool}
    {others : AuditTable → List Json → Result (Option CaseRow)} {sequence : ℤ}
    {previousHash : String} {seen rows : List CaseRow} {audited : AuditedKeys}
    {events : List AuditEvent} (h : Registers previousHash events rows)
    (haccepted : ∀ row ∈ rows, row.Accepted) (hkeys : ((seen ++ rows).map CaseRow.key).Nodup)
    (hsha : ∀ row ∈ rows, ∀ current ∈ cases,
      fingerprint row.entity = fingerprint current.entity → row = current) :
    verifyEvents (caseTables cases profile others) semantic sequence previousHash
        (registeredKeys seen) (numberedRows sequence events) = .ok (some audited) ↔
      (∀ row ∈ rows, Keyed.lookup CaseRow.key cases row.key = some row) ∧
        audited = registeredKeys (seen ++ rows) := by
  induction events generalizing sequence previousHash seen rows with
  | nil =>
      cases rows with
      | nil => simp [numberedRows, verifyEvents, eq_comm]
      | cons row rows => exact h.elim
  | cons event events ih =>
      cases rows with
      | nil => exact h.elim
      | cons row rows =>
          obtain ⟨hevent, hrest⟩ := h
          obtain ⟨hrow, hrows⟩ := List.forall_mem_cons.mp haccepted
          obtain ⟨hrowSha, hrowsSha⟩ := List.forall_mem_cons.mp hsha
          have hnew : row.key ∉ seen.map CaseRow.key := by
            rw [List.map_append] at hkeys
            intro hin
            exact (List.nodup_append.mp hkeys).2.2 _ hin _ (by simp) rfl
          have hassoc : seen ++ row :: rows = (seen ++ [row]) ++ rows := by simp
          have hnext := @ih (sequence + 1) event.eventHash (seen ++ [row]) rows hrest hrows
            (hassoc ▸ hkeys) hrowsSha
          rw [numberedRows, verifyEvents, bind_eq_ok, List.forall_mem_cons, hassoc, and_assoc,
            ← hnext]
          constructor
          · rintro ⟨step, hstep, hloop⟩
            cases step with
            | none => simp at hloop
            | some audited' =>
                obtain ⟨hlookup, rfl⟩ := (verifyEvent_registered hevent hrow hnew hrowSha).mp hstep
                exact ⟨hlookup, hloop⟩
          · rintro ⟨hlookup, hloop⟩
            exact ⟨_, (verifyEvent_registered hevent hrow hnew hrowSha).mpr ⟨hlookup, rfl⟩, hloop⟩

lemma caseTables_businessKeys {cases : List CaseRow} {profile : Bool}
    {others : AuditTable → List Json → Result (Option CaseRow)} (table : AuditTable) :
    (caseTables cases profile others).businessKeys table =
      if table = .cases then cases.map CaseRow.auditKey else [] := by
  cases table <;> rfl

/-- The keys that are registered are those of the table. -/
lemma keysCovered_registered {cases rows : List CaseRow} {profile : Bool}
    {others : AuditTable → List Json → Result (Option CaseRow)} :
    keysCovered (caseTables cases profile others) (registeredKeys rows) = true ↔
      ∀ k, k ∈ rows.map CaseRow.key ↔ k ∈ cases.map CaseRow.key := by
  have hall : ∀ rows rows' : List CaseRow,
      (rows.map CaseRow.auditKey).all (memKeys · (rows'.map CaseRow.auditKey)) = true ↔
        ∀ k ∈ rows.map CaseRow.key, k ∈ rows'.map CaseRow.key := by
    intro rows rows'
    simp only [List.all_map, List.all_eq_true, Function.comp_apply, memKeys_auditKey,
      List.forall_mem_map]
  have hcases : ((registeredKeys rows).of .cases).all
        (memKeys · ((caseTables cases profile others).businessKeys .cases)) = true ∧
      ((caseTables cases profile others).businessKeys .cases).all
        (memKeys · ((registeredKeys rows).of .cases)) = true ↔
          ∀ k, k ∈ rows.map CaseRow.key ↔ k ∈ cases.map CaseRow.key := by
    rw [registeredKeys_of, if_pos rfl, caseTables_businessKeys, if_pos rfl, ← List.map_reverse,
      hall, hall, List.map_reverse]
    simp only [List.mem_reverse]
    exact ⟨fun h k => ⟨h.1 k, h.2 k⟩, fun h => ⟨fun k => (h k).mp, fun k => (h k).mpr⟩⟩
  rw [keysCovered, List.all_eq_true, ← hcases]
  constructor
  · intro h
    exact Bool.and_eq_true_iff.mp (h .cases (by decide))
  · intro h table _
    by_cases htable : table = .cases
    · rw [htable]
      exact Bool.and_eq_true_iff.mpr h
    · rw [registeredKeys_of, if_neg htable, caseTables_businessKeys, if_neg htable]
      rfl

/-- **The verifier** accepts a table that holds what the events register. -/
lemma verifyAuditChain_registered {cases rows : List CaseRow} {profile semantic : Bool}
    {others : AuditTable → List Json → Result (Option CaseRow)} {events : List AuditEvent}
    (h : Registers "GENESIS" events rows) (haccepted : ∀ row ∈ rows, row.Accepted)
    (hkeys : (rows.map CaseRow.key).Nodup) (htable : (cases.map CaseRow.key).Nodup)
    (hsha : ∀ row ∈ rows, ∀ current ∈ cases,
      fingerprint row.entity = fingerprint current.entity → row = current) :
    verifyAuditChain (caseTables cases profile others) semantic (numberedRows 1 events) = .ok true ↔
      rows ≠ [] ∧ cases.Perm rows ∧ (semantic = true → ∀ row ∈ rows, row.Unresolved) := by
  have hempty : numberedRows 1 events = [] ↔ rows = [] := by
    cases events with
    | nil =>
        cases rows with
        | nil => simp [numberedRows]
        | cons row rows => exact h.elim
    | cons event events =>
        cases rows with
        | nil => exact h.elim
        | cons row rows => simp [numberedRows]
  have hperm : ((∀ row ∈ rows, Keyed.lookup CaseRow.key cases row.key = some row) ∧
      ∀ k, k ∈ rows.map CaseRow.key ↔ k ∈ cases.map CaseRow.key) ↔ cases.Perm rows := by
    constructor
    · rintro ⟨hlookup, hsame⟩
      refine (Keyed.perm_of_lookup htable hkeys hsame ?_).symm
      rw [List.forall₂_map_left_iff, List.forall₂_same]
      exact hlookup
    · intro hperm
      refine ⟨fun row hrow => ?_, fun k => (hperm.map CaseRow.key).mem_iff.symm⟩
      exact (Keyed.lookup_eq_some_iff htable).mpr ⟨hperm.mem_iff.mpr hrow, rfl⟩
  have hpassed : verifyEvents (caseTables cases profile others) semantic 1 "GENESIS" []
      (numberedRows 1 events) = .ok (some (registeredKeys rows)) ↔
        ∀ row ∈ rows, Keyed.lookup CaseRow.key cases row.key = some row := by
    have hloop := @verifyEvents_registered _ cases profile semantic others 1 "GENESIS" [] rows
      (registeredKeys rows) events h haccepted hkeys hsha
    rw [List.nil_append, and_iff_left rfl] at hloop
    exact hloop
  have hsources : (caseTables cases profile others).sourcesCovered = .ok true := rfl
  have hadmissions : (caseTables cases profile others).admissionsCovered =
    allEach caseIsCovered cases := rfl
  have hpayloads : (caseTables cases profile others).payloadsExact =
    allEach payloadIsExact cases := rfl
  by_cases hnil : rows = []
  · rw [verifyAuditChain, if_pos (hempty.mpr hnil)]
    simp [hnil]
  rw [verifyAuditChain, if_neg (mt hempty.mp hnil), bind_eq_ok, ← hperm, and_iff_right hnil]
  constructor
  · rintro ⟨step, hstep, hrest⟩
    cases step with
    | none => simp at hrest
    | some audited =>
        have hloop := @verifyEvents_registered _ cases profile semantic others 1 "GENESIS" [] rows
          audited events h haccepted hkeys hsha
        obtain ⟨hlookup, rfl⟩ := hloop.mp hstep
        rw [List.nil_append] at hrest
        cases hcovered : keysCovered (caseTables cases profile others) (registeredKeys rows) with
        | false => simp [hcovered] at hrest
        | true =>
            have hsame := keysCovered_registered.mp hcovered
            refine ⟨⟨hlookup, hsame⟩, fun hsemantic => ?_⟩
            simp only [hcovered, hsemantic, Bool.true_eq_false, hsources, hadmissions, ok_bind,
              ↓reduceIte, bind_eq_ok] at hrest
            obtain ⟨admitted, hadmitted, hrest⟩ := hrest
            cases admitted with
            | false => simp at hrest
            | true =>
                intro row hrow
                have hin := (hperm.mp ⟨hlookup, hsame⟩).mem_iff.mpr hrow
                exact (caseIsCovered_iff (haccepted row hrow)).mp
                  (allEach_eq_true.mp hadmitted row hin)
  · rintro ⟨⟨hlookup, hsame⟩, hresolved⟩
    have hin : ∀ row ∈ cases, row ∈ rows :=
      fun row hrow => (hperm.mp ⟨hlookup, hsame⟩).mem_iff.mp hrow
    refine ⟨_, hpassed.mpr hlookup, ?_⟩
    cases semantic with
    | false => simp [keysCovered_registered.mpr hsame]
    | true =>
        have hadmitted : allEach caseIsCovered cases = .ok true :=
          allEach_eq_true.mpr fun row hrow =>
            (caseIsCovered_iff (haccepted row (hin row hrow))).mpr (hresolved rfl row (hin row hrow))
        have hexact : allEach payloadIsExact cases = .ok true :=
          allEach_eq_true.mpr fun row hrow => payloadIsExact_accepted (haccepted row (hin row hrow))
        simp only [keysCovered_registered.mpr hsame, Bool.true_eq_false, hsources, hadmissions,
          hpayloads, ok_bind, ↓reduceIte, hadmitted, hexact]

/-! ## Saving -/

lemma registers_append {previousHash : String} {events : List AuditEvent} {rows : List CaseRow}
    {event : AuditEvent} {row : CaseRow} (h : Registers previousHash events rows)
    (hevent : RegistersCase ((events.getLast?.map AuditEvent.eventHash).getD previousHash) event row) :
    Registers previousHash (events ++ [event]) (rows ++ [row]) := by
  induction events generalizing previousHash rows with
  | nil =>
      cases rows with
      | nil => exact ⟨hevent, trivial⟩
      | cons row rows => exact h.elim
  | cons first events ih =>
      cases rows with
      | nil => exact h.elim
      | cons firstRow rows =>
          obtain ⟨hfirst, hrest⟩ := h
          refine ⟨hfirst, ih hrest ?_⟩
          cases events with
          | nil => exact hevent
          | cons second events =>
              rw [List.getLast?_cons_cons] at hevent
              rw [List.getLast?_eq_some_getLast (List.cons_ne_nil second events)] at hevent ⊢
              exact hevent

/-- **One save** keeps what the saves before it have left. -/
lemma Registered.saveCase {s : Store Tables} (h : Registered s) (now : String) {case : Dict}
    (hwf : (Json.obj case).WF) : Registered (saveCase now case s).2 := by
  rw [QualityCI.saveCase]
  cases hrow : saveCaseRow now case s with
  | error e => exact h
  | ok result =>
      obtain ⟨inserted, s'⟩ := result
      simp only [saveCaseRow, bind_eq_ok] at hrow
      obtain ⟨prepared, hprepared, row, hcase, hrow⟩ := hrow
      cases hfind : s.case? row.caseId row.caseHash with
      | some stored =>
          simp only [hfind, bind_eq_ok, exists_unit, require_eq_ok, Except.ok.injEq,
            Prod.mk.injEq] at hrow
          obtain ⟨_, -, _, -, -, -, rfl⟩ := hrow
          exact h
      | none =>
          simp only [hfind, bind_eq_ok, Except.ok.injEq, Prod.mk.injEq] at hrow
          obtain ⟨entityFingerprint, hprint, events, hevents, -, rfl⟩ := hrow
          have haccepted : row.Accepted :=
            ⟨prepared, prepareCase_wf hwf hprepared, (prepareCase_eq_ok.mp hprepared).2, hcase⟩
          have hnew : row.key ∉ s.cases.map CaseRow.key := by
            intro hin
            obtain ⟨stored, hstored, hkey⟩ := List.mem_map.mp hin
            have hfree := List.find?_eq_none.mp hfind stored hstored
            simp only [CaseRow.key, Prod.mk.injEq] at hkey
            simp [hkey] at hfree
          simp only [appendAudit, bind_eq_ok] at hevents
          obtain ⟨payload, hpayload, hevents⟩ := hevents
          split_ifs at hevents
          obtain rfl := Except.ok.inj hevents
          refine ⟨?_, ?_, ?_⟩
          · rw [List.map_append, List.map_singleton]
            exact List.concat_eq_append ▸ h.keys.concat hnew
          · intro r hr
            rcases List.mem_append.mp hr with hr | hr
            · exact h.accepted r hr
            · exact List.mem_singleton.mp hr ▸ haccepted
          · exact registers_append h.events
              ⟨⟨rfl, rfl, rfl⟩, rfl, rfl, entityFingerprint, hprint, hpayload⟩

/-- Any sequence of saves does. -/
lemma Registered.saveCases {s : Store Tables} (h : Registered s) {calls : List (String × Dict)}
    (hwf : ∀ call ∈ calls, (Json.obj call.2).WF) : Registered (saveCases calls s) := by
  induction calls generalizing s with
  | nil => exact h
  | cons call calls ih =>
      obtain ⟨hcall, hcalls⟩ := List.forall_mem_cons.mp hwf
      exact ih (h.saveCase call.1 hcall) hcalls

/-- **The audit of saved cases.**  After any sequence of saves into a new store, the ones that raise
included: against any table of cases with distinct keys whose fingerprints SHA-256 tells apart from
those of the saved rows, the verifier accepts the chain exactly when something was saved, the table
holds the saved rows, and, if it checks their meaning too, no resolution has been applied to a case
of them. -/
theorem savedCases_audit {calls : List (String × Dict)} (tables : Tables) (cases : List CaseRow)
    (hwf : ∀ call ∈ calls, (Json.obj call.2).WF) (htable : (cases.map CaseRow.key).Nodup)
    (hsha : ∀ row ∈ (saveCases calls ⟨[], [], tables⟩ : Store Tables).cases, ∀ current ∈ cases,
      fingerprint row.entity = fingerprint current.entity → row = current)
    (profile semantic : Bool) (others : AuditTable → List Json → Result (Option CaseRow)) :
    verifyAuditChain (caseTables cases profile others) semantic
        (numberedRows 1 (saveCases calls ⟨[], [], tables⟩ : Store Tables).auditEvents) = .ok true ↔
      (saveCases calls ⟨[], [], tables⟩ : Store Tables).cases ≠ [] ∧
        cases.Perm (saveCases calls ⟨[], [], tables⟩ : Store Tables).cases ∧
        (semantic = true →
          ∀ row ∈ (saveCases calls ⟨[], [], tables⟩ : Store Tables).cases, row.Unresolved) := by
  have hnew : Registered (⟨[], [], tables⟩ : Store Tables) := ⟨List.nodup_nil, by simp, trivial⟩
  have h := hnew.saveCases hwf
  exact verifyAuditChain_registered h.events h.accepted h.keys htable hsha

end Checks

section Ascii

attribute [local instance] asciiUnicode

/-- Nothing is found under another key. -/
def noOthers (_ : AuditTable) (_ : List Json) : Result (Option CaseRow) := .ok none

/-- A save, the same again, and one of the same case with its documents in another order, which
conflicts with the first. -/
def plainSaves : List (String × Dict) :=
  [("2026-01-01T00:00:00+00:00", orderedCase plainDocuments),
   ("2026-01-02T00:00:00+00:00", orderedCase plainDocuments),
   ("2026-01-03T00:00:00+00:00", orderedCase plainDocuments.reverse)]

lemma plainSaves_wf : ∀ call ∈ plainSaves, (Json.obj call.2).WF := by
  obtain ⟨hplain, -⟩ := orderedCase_saved plainDocuments_ordered
  obtain ⟨hreversed, -⟩ := orderedCase_saved reversed_ordered
  simp [plainSaves, hplain, hreversed]

/-- The first save inserts, and the others leave the store as it is. -/
lemma plainSaves_cases :
    (saveCases plainSaves (⟨[], [], ()⟩ : Store Unit)).cases = [orderedRow plainDocuments] := by
  obtain ⟨-, hprepared, hrow⟩ := orderedCase_saved plainDocuments_ordered
  obtain ⟨-, hprepared', hrow'⟩ := orderedCase_saved reversed_ordered
  have hsave : ∃ s : Store Unit, saveCase "2026-01-01T00:00:00+00:00" (orderedCase plainDocuments)
      ⟨[], [], ()⟩ = (.ok true, s) ∧ s.cases = [orderedRow plainDocuments] :=
    saveCase_first hprepared hrow
  obtain ⟨s, hsave, hcases⟩ := hsave
  rw [plainSaves, saveCases, saveCases, saveCases, saveCases, hsave,
    saveCase_taken_store hprepared hrow (case?_plain hcases _),
    saveCase_taken_store hprepared' hrow' (case?_plain hcases _), hcases]

/-- The saves, audited against the row they left and against an empty table. -/
theorem savedCases_audit_plain :
    verifyAuditChain (caseTables [orderedRow plainDocuments] true noOthers) true
        (numberedRows 1 (saveCases plainSaves (⟨[], [], ()⟩ : Store Unit)).auditEvents) =
      .ok true ∧
    verifyAuditChain (caseTables [] true noOthers) true
        (numberedRows 1 (saveCases plainSaves (⟨[], [], ()⟩ : Store Unit)).auditEvents) ≠
      .ok true := by
  obtain ⟨hwf, -, hrow⟩ := orderedCase_saved plainDocuments_ordered
  have hunresolved : (orderedRow plainDocuments).Unresolved :=
    ⟨_, loads_payload hwf hrow ⟨true⟩, by decide +kernel⟩
  have haudit := savedCases_audit () [orderedRow plainDocuments] plainSaves_wf (by simp)
    (by simp [plainSaves_cases]) true true noOthers
  have hnothing := savedCases_audit () [] plainSaves_wf (by simp) (by simp) true true noOthers
  rw [plainSaves_cases] at haudit hnothing
  exact ⟨haudit.mpr (by simp [hunresolved]), fun h => by simpa using (hnothing.mp h).2.1⟩

end Ascii

end QualityCI
