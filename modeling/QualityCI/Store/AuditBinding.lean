import QualityCI.Store.AuditChain

/-!
# What the audit chain says of the tables

The verifier looks the row of each event up and compares its fingerprint with the one in the event's
payload, and in the end the registered keys with those of the tables.  So the last hash of a chain
that passes stands for the rows of all the tables, not for the events alone.

* `Found` — what has been compared for one event.
* `verifyAuditChain_found` — each event has found its row, and the keys are those of the tables.
* **`auditChain_binds_tables`** — two stores whose chains pass with one last hash have registered the
  same keys in every table, and under each of them rows of one fingerprint.
-/

namespace QualityCI

open Py

section Verifying

variable [PyUnicode] {Entity : Type}

/-! ## What has been compared -/

omit [PyUnicode] in
/-- The row that an event registers is in its table, with the fingerprint that the event has. -/
structure Found (tables : StoredTables Entity) (row : AuditRow) (entry : AuditTable × List Json) :
    Prop where
  named : ∃ primaryKey expected, auditPayload row.payloadJson = some (.obj primaryKey, expected) ∧
    auditActions.lookup row.action = some entry.1 ∧ entry.2 = entry.1.keyOf primaryKey
  stored : ∃ current entityFingerprint, tables.entity entry.1 entry.2 = .ok (some current) ∧
    tables.fingerprint current = .ok entityFingerprint ∧
    (auditPayload row.payloadJson).map Prod.snd = some (.str entityFingerprint)

omit [PyUnicode] in
/-- An event names one key. -/
lemma Found.unique {Entity' : Type} {tables : StoredTables Entity} {tables' : StoredTables Entity'}
    {row : AuditRow} {entry entry' : AuditTable × List Json} (h : Found tables row entry)
    (h' : Found tables' row entry') : entry = entry' := by
  obtain ⟨primaryKey, expected, hpayload, htable, hkey⟩ := h.named
  obtain ⟨primaryKey', expected', hpayload', htable', hkey'⟩ := h'.named
  rw [hpayload, Option.some.injEq, Prod.mk.injEq, Json.obj.injEq] at hpayload'
  rw [htable, Option.some.injEq] at htable'
  obtain ⟨rfl, -⟩ := hpayload'
  refine Prod.ext htable' ?_
  rw [hkey, hkey', htable']

/-- **One event** that passes has found its row. -/
lemma verifyEvent_found {tables : StoredTables Entity} {semantic : Bool} {sequence : ℤ}
    {previousHash : String} {audited audited' : AuditedKeys} {row : AuditRow}
    (h : verifyEvent tables semantic sequence previousHash audited row = .ok (some audited')) :
    ∃ entry, Found tables row entry ∧ audited' = entry :: audited := by
  rw [verifyEvent, passing_eq_some, passing_eq_some] at h
  obtain ⟨-, -, h⟩ := h
  split at h
  · rename_i primaryKey expected table hpayload haction
    simp only [bind_eq_ok] at h
    obtain ⟨primaryKey, hdict, entity, hentity, h⟩ := h
    rw [gettable_eq_ok.mp hdict] at hpayload
    cases entity with
    | none => simp at h
    | some current =>
        obtain ⟨-, h⟩ := passing_eq_some.mp h
        by_cases hsources : table ∈ AuditTable.caseSource ∧ tables.hasCaseSources = false
        · rw [if_pos hsources] at h
          simp [keyError] at h
        · rw [if_neg hsources] at h
          simp only [bind_eq_ok, exists_unit, passing_eq_some] at h
          obtain ⟨-, -, entityFingerprint, hprint, hexpected, h⟩ := h
          have hadded : audited' = (table, table.keyOf primaryKey) :: audited := by
            cases semantic with
            | false =>
                simp only [Bool.false_eq_true, if_false, ok_bind, passing_eq_some] at h
                exact (Option.some.inj (Except.ok.inj h.2)).symm
            | true =>
                simp only [↓reduceIte, bind_eq_ok, passing_eq_some] at h
                obtain ⟨valid, -, -, h⟩ := h
                exact (Option.some.inj (Except.ok.inj h)).symm
          refine ⟨(table, table.keyOf primaryKey), ⟨⟨primaryKey, expected, hpayload, haction, rfl⟩,
            current, entityFingerprint, hentity, hprint, ?_⟩, hadded⟩
          rw [hpayload, hexpected]
          rfl
  · simp at h

/-- The loop: every event has found its row. -/
lemma verifyEvents_found {tables : StoredTables Entity} {semantic : Bool} {sequence : ℤ}
    {previousHash : String} {audited audited' : AuditedKeys} {rows : List AuditRow}
    (h : verifyEvents tables semantic sequence previousHash audited rows = .ok (some audited')) :
    ∃ entries, List.Forall₂ (Found tables) rows entries ∧ audited' = entries.reverse ++ audited := by
  induction rows generalizing sequence previousHash audited with
  | nil => exact ⟨[], .nil, (Option.some.inj (Except.ok.inj h)).symm⟩
  | cons row rows ih =>
      simp only [verifyEvents, bind_eq_ok] at h
      obtain ⟨step, hstep, h⟩ := h
      cases step with
      | none => simp at h
      | some audited₁ =>
          obtain ⟨entry, hentry, rfl⟩ := verifyEvent_found hstep
          obtain ⟨entries, hentries, rfl⟩ := ih h
          exact ⟨entry :: entries, .cons hentry hentries, by simp⟩

/-- **A chain that passes** has found the row of each event, and the keys of the tables are those of
the events. -/
lemma verifyAuditChain_found {tables : StoredTables Entity} {semantic : Bool} {rows : List AuditRow}
    (h : verifyAuditChain tables semantic rows = .ok true) :
    ∃ entries, List.Forall₂ (Found tables) rows entries ∧
      keysCovered tables entries.reverse = true := by
  rw [verifyAuditChain] at h
  by_cases hempty : rows = []
  · rw [if_pos hempty] at h
    simp at h
  · rw [if_neg hempty, bind_eq_ok] at h
    obtain ⟨step, hstep, h⟩ := h
    cases step with
    | none => simp at h
    | some audited =>
        obtain ⟨entries, hentries, rfl⟩ := verifyEvents_found hstep
        rw [List.append_nil] at h
        refine ⟨entries, hentries, ?_⟩
        cases hcovered : keysCovered tables entries.reverse with
        | false => simp [hcovered] at h
        | true => rfl

/-! ## Two stores -/

omit [PyUnicode] in
/-- Two tables have rows of one fingerprint under a key. -/
def SameRow {Entity' : Type} (tables : StoredTables Entity) (tables' : StoredTables Entity')
    (entry : AuditTable × List Json) : Prop :=
  ∃ current current' entityFingerprint, tables.entity entry.1 entry.2 = .ok (some current) ∧
    tables'.entity entry.1 entry.2 = .ok (some current') ∧
    tables.fingerprint current = .ok entityFingerprint ∧
    tables'.fingerprint current' = .ok entityFingerprint

omit [PyUnicode] in
/-- The events of one chain name the same keys in both stores. -/
lemma found_same {Entity' : Type} {tables : StoredTables Entity} {tables' : StoredTables Entity'}
    {rows : List AuditRow} {entries entries' : AuditedKeys}
    (h : List.Forall₂ (Found tables) rows entries)
    (h' : List.Forall₂ (Found tables') rows entries') :
    entries = entries' ∧ ∀ entry ∈ entries, SameRow tables tables' entry := by
  induction h generalizing entries' with
  | nil =>
      cases h'
      exact ⟨rfl, by simp⟩
  | cons hrow _ ih =>
      cases h' with
      | cons hrow' hrest' =>
          obtain ⟨rfl, hsame⟩ := ih hrest'
          obtain rfl := hrow.unique hrow'
          refine ⟨rfl, List.forall_mem_cons.mpr ⟨?_, hsame⟩⟩
          obtain ⟨current, print, hentity, hprint, hpayload⟩ := hrow.stored
          obtain ⟨current', print', hentity', hprint', hpayload'⟩ := hrow'.stored
          rw [hpayload, Option.some.injEq, Json.str.injEq] at hpayload'
          exact ⟨current, current', print, hentity, hentity', hprint, hpayload' ▸ hprint'⟩

/-- **The audit chain binds the tables.**  Whatever the two stores hold and however they are checked:
if both chains pass, SHA-256 tells the texts they hash apart, and the last hash is the same, then one
list of registered keys is that of the keys of every table in both stores, and under each of these
keys both have a row, with the same fingerprint. -/
theorem auditChain_binds_tables {Entity' : Type} (tables : StoredTables Entity)
    (tables' : StoredTables Entity') (semantic semantic' : Bool) (rows rows' : List AuditRow)
    (hpass : verifyAuditChain tables semantic rows = .ok true)
    (hpass' : verifyAuditChain tables' semantic' rows' = .ok true)
    (hsha : ∀ row ∈ rows, ∀ row' ∈ rows',
      sha256Hex (auditSeed row) = sha256Hex (auditSeed row') → auditSeed row = auditSeed row')
    (hlast : rows.getLast?.map (fun row => row.eventHash) =
      rows'.getLast?.map fun row => row.eventHash) :
    ∃ entries : AuditedKeys, keysCovered tables entries = true ∧
      keysCovered tables' entries = true ∧ ∀ entry ∈ entries, SameRow tables tables' entry := by
  have hsameLast : lastHash "GENESIS" rows = lastHash "GENESIS" rows' := by
    rw [lastHash, lastHash, hlast]
  obtain rfl := chained_unique (verifyAuditChain_chained hpass) (verifyAuditChain_chained hpass')
    hsha hsameLast
  obtain ⟨entries, hfound, hcovered⟩ := verifyAuditChain_found hpass
  obtain ⟨entries', hfound', hcovered'⟩ := verifyAuditChain_found hpass'
  obtain ⟨rfl, hsame⟩ := found_same hfound hfound'
  exact ⟨_, hcovered, hcovered', fun entry hentry => hsame entry (List.mem_reverse.mp hentry)⟩

end Verifying

section Ascii

attribute [local instance] asciiUnicode

/-- The tables of another store with the same cases, whose entities are texts. -/
def otherTables : StoredTables String where
  hasCaseSources := true
  entity _ _ := .ok (some "the case")
  fingerprint _ := .ok "F"
  isValid _ _ := .ok true
  businessKeys table :=
    if table = .cases then [[.str "|", .str "H"], [.str "A|B", .str "H"]] else []
  sourcesCovered := .ok true
  admissionsCovered := .ok true
  payloadsExact := .ok true

theorem auditChain_binds_tables_sample :
    verifyAuditChain sampleTables true sampleChain = .ok true ∧
      verifyAuditChain otherTables false sampleChain = .ok true ∧
      ∃ entries : AuditedKeys, keysCovered sampleTables entries = true ∧
        keysCovered otherTables entries = true ∧
        ∀ entry ∈ entries, SameRow sampleTables otherTables entry := by
  have hpass : verifyAuditChain otherTables false sampleChain = .ok true := by decide +kernel
  exact ⟨sampleChain_passes, hpass, auditChain_binds_tables _ _ true false _ _ sampleChain_passes
    hpass sampleChain_distinct rfl⟩

end Ascii

end QualityCI
