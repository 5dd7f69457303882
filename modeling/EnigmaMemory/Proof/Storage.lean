import EnigmaMemory.Lib.Result
import EnigmaMemory.Proof.Mesh
import EnigmaMemory.Proof.Reference
import EnigmaMemory.Spec.Storage

/-!
# What an upsert leaves in its table

* `stored_iff`: when an executed operation leaves one row with the sent values.
* `upserts_store`: four of the five builders always do; a relay record keeps the store and the capsule
  of the row that is there.
-/

namespace EnigmaMemory.Storage

open Json Mesh

variable {P : Platform} {db : Postgres}

/-! ## Execution -/

/-- The columns of an operation with the values for them. -/
def StorageOperation.sent (op : StorageOperation) : List (Column × SqlParam) := op.statement.columns.zip op.values

/-- There is one row with the sent key, its columns have the sent values, and the other rows are as they
were. -/
def Stored (db : Postgres) (op : StorageOperation) (t t' : SqlTable db op.statement.key) : Prop :=
  ∃ row, Upsert.rowsWith t' (row op.statement.key) = [row] ∧ (∀ c ∈ op.sent, db.input c.1.type c.2 = some (row c.1.name)) ∧
    Upsert.rowsWithout t' (row op.statement.key) = Upsert.rowsWithout t (row op.statement.key)

/-- An operation that sends a value for every column, the key among them. -/
structure WellFormed (op : StorageOperation) : Prop where
  names : (op.sent.map (·.1.name)).Nodup
  key : ∃ c ∈ op.sent, c.1.name = op.statement.key

theorem lookup_read {sent : List (Column × SqlParam)} {written : List (String × db.Datum)} (hnames : (sent.map (·.1.name)).Nodup)
    (h : (sent.mapM fun c => (db.input c.1.type c.2).map fun datum => (c.1.name, datum)) = some written) :
    ∀ c ∈ sent, db.input c.1.type c.2 = some (proposed db written c.1.name) := by
  induction sent generalizing written with
  | nil => simp
  | cons c rest ih =>
    rw [List.map_cons, List.nodup_cons] at hnames
    rw [List.mapM_cons] at h
    obtain ⟨first, hfirst, h⟩ := Option.bind_eq_some_iff.1 h
    obtain ⟨others, hothers, h⟩ := Option.bind_eq_some_iff.1 h
    obtain ⟨datum, hdatum, rfl⟩ := Option.map_eq_some_iff.1 hfirst
    obtain rfl : (c.1.name, datum) :: others = written := Option.some.inj h
    rw [List.forall_mem_cons]
    constructor
    · rw [hdatum, proposed, OrdMap.lookup_cons_eq, if_pos rfl]
      rfl
    · intro d hd
      have hne : d.1.name ≠ c.1.name := fun heq => hnames.1 (heq ▸ List.mem_map_of_mem hd)
      rw [ih hnames.2 hothers d hd, proposed, proposed, OrdMap.lookup_cons_eq, if_neg hne]

theorem execute_eq_some {op : StorageOperation} {t t' : SqlTable db op.statement.key} (h : execute db op t = some t') :
    ∃ written, readValues db op = some written ∧ t' = Upsert.upsert t op.statement.updates (proposed db written) := by
  rw [execute] at h
  obtain ⟨written, hwritten, h⟩ := Option.bind_eq_some_iff.1 h
  refine ⟨written, hwritten, ?_⟩
  dsimp only at h
  split at h
  · exact (Option.some.inj h).symm
  · cases h

/-- **When an executed operation leaves a row with the sent values**: the row that was there has them in the
columns that are not updated. -/
theorem stored_iff {op : StorageOperation} (hop : WellFormed op) (t : SqlTable db op.statement.key) :
    (∃ t', execute db op t = some t' ∧ Stored db op t t') ↔ (execute db op t).isSome = true ∧
      ∀ row ∈ t.rows, (∀ c ∈ op.sent, c.1.name = op.statement.key → db.input c.1.type c.2 = some (row c.1.name)) →
        ∀ c ∈ op.sent, c.1.name ∉ op.statement.updates → db.input c.1.type c.2 = some (row c.1.name) := by
  cases hexecuted : execute db op t with
  | none => simp
  | some t' =>
    obtain ⟨written, hwritten, rfl⟩ := execute_eq_some hexecuted
    have hvalues := lookup_read hop.names hwritten
    set new := proposed db written
    obtain ⟨k, hk, hkey⟩ := hop.key
    have hagree : ∀ row : SqlRow db, ∀ c ∈ op.sent, (db.input c.1.type c.2 = some (row c.1.name) ↔ row c.1.name = new c.1.name) := by
      intro row c hc
      rw [hvalues c hc, Option.some.injEq, eq_comm]
    have hkeys : ∀ row : SqlRow db, (∀ c ∈ op.sent, row c.1.name = new c.1.name) → row op.statement.key = new op.statement.key :=
      fun row h => hkey ▸ h k hk
    have hstores : Stored db op t (Upsert.upsert t op.statement.updates new) ↔
        Upsert.Stores t (Upsert.upsert t op.statement.updates new) (op.sent.map (·.1.name)) new := by
      constructor
      · rintro ⟨row, hrow, hsent, hothers⟩
        have hsame : ∀ c ∈ op.sent, row c.1.name = new c.1.name := fun c hc => (hagree row c hc).1 (hsent c hc)
        rw [hkeys row hsame] at hrow hothers
        refine ⟨⟨row, hrow, fun c hc => ?_⟩, hothers⟩
        obtain ⟨d, hd, rfl⟩ := List.mem_map.1 hc
        exact hsame d hd
      · rintro ⟨⟨row, hrow, hnew⟩, hothers⟩
        have hsame : ∀ c ∈ op.sent, row c.1.name = new c.1.name := fun c hc => hnew _ (List.mem_map_of_mem hc)
        refine ⟨row, ?_, fun c hc => (hagree row c hc).2 (hsame c hc), ?_⟩
        · rw [hkeys row hsame]
          exact hrow
        · rw [hkeys row hsame]
          exact hothers
    have hsome : (∃ t', some (Upsert.upsert t op.statement.updates new) = some t' ∧ Stored db op t t') ↔
        Stored db op t (Upsert.upsert t op.statement.updates new) := by simp
    rw [hsome, hstores, Upsert.stores_upsert_iff, Option.isSome_some, eq_self_iff_true, true_and]
    refine forall₂_congr fun row hrow => ?_
    constructor
    · intro h hsent c hc hupdates
      have hrowkey : row op.statement.key = new op.statement.key := by
        rw [← hkey]
        exact (hagree row k hk).1 (hsent k hk hkey)
      exact (hagree row c hc).2 (h hrowkey _ (List.mem_map_of_mem hc) hupdates)
    · intro h hrowkey name hname hupdates
      obtain ⟨c, hc, rfl⟩ := List.mem_map.1 hname
      refine (hagree row c hc).1 (h (fun d hd hdkey => (hagree row d hd).2 ?_) c hc hupdates)
      rw [hdkey]
      exact hrowkey

/-- An operation that updates every column but the key stores what it sends. -/
theorem stored_of_updates {op : StorageOperation} (hop : WellFormed op)
    (hupdates : ∀ c ∈ op.sent, c.1.name = op.statement.key ∨ c.1.name ∈ op.statement.updates) (t : SqlTable db op.statement.key) :
    (∃ t', execute db op t = some t' ∧ Stored db op t t') ↔ (execute db op t).isSome = true := by
  rw [stored_iff hop, and_iff_left_iff_imp]
  intro _ row _ hkey c hc hnot
  exact hkey c hc ((hupdates c hc).resolve_right hnot)

/-! ## Builders -/

theorem map_fst_sent {op : StorageOperation} (h : op.values.length = op.statement.columns.length) :
    op.sent.map (·.1.name) = op.statement.columns.map (·.name) := by
  have hfst : op.sent.map Prod.fst = op.statement.columns := List.map_fst_zip h.ge
  rw [← hfst, List.map_map]
  rfl

/-- What a builder returns. -/
theorem buildOperation_ok {context : String} {statement : UpsertStatement} {record schema : Option Json} {op : StorageOperation}
    (h : buildOperation P context statement record schema = .ok op) : op.statement = statement ∧
      statement.columns.mapM (fun c => c.read (property record c.name) (js (context ++ "." ++ c.name))) = .ok op.values := by
  simp only [buildOperation, storageOperation, Except.bind_eq_ok, failIf_ok] at h
  obtain ⟨_, -, values, hvalues, _, -, _, -, h⟩ := h
  cases h
  exact ⟨rfl, hvalues⟩

theorem buildUpsert_ok {context : String} {statement : UpsertStatement} {record : Option Json} {options : Json} {op : StorageOperation}
    (h : buildUpsert P context statement record options = .ok op) :
    ∃ schema, buildOperation P context statement record schema = .ok op := by
  simp only [buildUpsert, Except.bind_eq_ok] at h
  obtain ⟨_, -, schema, -, h⟩ := h
  exact ⟨schema, h⟩

theorem buildReadiness_ok {evidenceRef : Option Json} {options : Json} {op : StorageOperation}
    (h : buildReadinessEvidenceRefUpsert P evidenceRef options = .ok op) :
    ∃ schema, buildOperation P "readiness_evidence_ref" (readinessEvidenceRefStatement P) evidenceRef schema = .ok op := by
  simp only [buildReadinessEvidenceRefUpsert, Except.bind_eq_ok] at h
  obtain ⟨_, -, schema, -, _, -, _, -, h⟩ := h
  exact ⟨schema, h⟩

/-- A statement that names its columns once, the key among them. -/
def UpsertStatement.Sound (statement : UpsertStatement) : Prop :=
  (statement.columns.map (·.name)).Nodup ∧ statement.key ∈ statement.columns.map (·.name)

theorem wellFormed {op : StorageOperation} (hsound : op.statement.Sound) (h : op.values.length = op.statement.columns.length) :
    WellFormed op := by
  obtain ⟨hnames, hkey⟩ := hsound
  rw [← map_fst_sent h] at hnames hkey
  obtain ⟨c, hc, heq⟩ := List.mem_map.1 hkey
  exact ⟨hnames, c, hc, heq⟩

/-- A builder whose statement updates every column but the key. -/
theorem stored_of_built {context : String} {statement : UpsertStatement} {record schema : Option Json} {op : StorageOperation}
    (hsound : statement.Sound) (hupdates : ∀ name ∈ statement.columns.map (·.name), name = statement.key ∨ name ∈ statement.updates)
    (h : buildOperation P context statement record schema = .ok op) (t : SqlTable db op.statement.key) :
    (∃ t', execute db op t = some t' ∧ Stored db op t t') ↔ (execute db op t).isSome = true := by
  obtain ⟨rfl, hvalues⟩ := buildOperation_ok h
  have hlength := Except.length_of_mapM hvalues
  refine stored_of_updates (wellFormed hsound hlength) (fun c hc => hupdates _ ?_) t
  rw [← map_fst_sent hlength]
  exact List.mem_map_of_mem hc

theorem requireNonEmptyString_ok {value : Option Json} {path : JsString} {v : SqlParam}
    (h : requireNonEmptyString P value path = .ok v) : ∃ s, value = some (.str s) ∧ v = .text s := by
  obtain ⟨s, hs, rfl⟩ := Except.map_eq_ok.1 h
  unfold requireNonEmptyText at hs
  split at hs
  · simp only [Except.bind_eq_ok] at hs
    obtain ⟨_, -, _, -, hs⟩ := hs
    cases hs
    exact ⟨_, rfl, rfl⟩
  · cases hs

/-- **A relay record is stored** unless the row with its key is of another store or capsule: these two
columns are not updated. -/
theorem relayRecord_stored_iff {record : Option Json} {options : Json} {op : StorageOperation}
    (h : buildRelayRecordUpsert P record options = .ok op) : ∃ id store capsule, property record "record_id" = some (.str id) ∧
      property record "store_id" = some (.str store) ∧ property record "capsule_id" = some (.str capsule) ∧
      ∀ (db : Postgres) (t : SqlTable db op.statement.key), (∃ t', execute db op t = some t' ∧ Stored db op t t') ↔
        (execute db op t).isSome = true ∧ ∀ row ∈ t.rows, db.input .text (.text id) = some (row "record_id") →
          db.input .text (.text store) = some (row "store_id") ∧ db.input .text (.text capsule) = some (row "capsule_id") := by
  obtain ⟨schema, h⟩ := buildUpsert_ok h
  obtain ⟨hstatement, hvalues⟩ := buildOperation_ok h
  obtain ⟨name, statement, text, values⟩ := op
  obtain rfl : statement = relayRecordStatement P := hstatement
  have hop : WellFormed ⟨name, relayRecordStatement P, text, values⟩ := by
    refine wellFormed ?_ (Except.length_of_mapM hvalues)
    simp [UpsertStatement.Sound, relayRecordStatement]
  simp only [relayRecordStatement, List.mapM_cons, Except.bind_eq_ok] at hvalues
  obtain ⟨v₁, h₁, others₁, ⟨v₂, h₂, others₂, ⟨v₃, h₃, others, -, e₃⟩, e₂⟩, e₁⟩ := hvalues
  obtain ⟨id, hid, rfl⟩ := requireNonEmptyString_ok h₁
  obtain ⟨store, hstore, rfl⟩ := requireNonEmptyString_ok h₂
  obtain ⟨capsule, hcapsule, rfl⟩ := requireNonEmptyString_ok h₃
  cases e₃
  cases e₂
  obtain rfl : .text id :: .text store :: .text capsule :: others = values := Except.ok.inj e₁
  refine ⟨id, store, capsule, hid, hstore, hcapsule, fun db t => ?_⟩
  rw [stored_iff hop]
  refine and_congr_right fun _ => forall₂_congr fun row _ => ?_
  set rest := ((relayRecordStatement P).columns.drop 3).zip others with hrest
  have hsent : StorageOperation.sent ⟨name, relayRecordStatement P, text, .text id :: .text store :: .text capsule :: others⟩ =
      (⟨"record_id", .text, requireNonEmptyString P⟩, .text id) :: (⟨"store_id", .text, requireNonEmptyString P⟩, .text store) ::
        (⟨"capsule_id", .text, requireNonEmptyString P⟩, .text capsule) :: rest := rfl
  -- the other columns are updated
  have hothers : ∀ c ∈ rest, c.1.name ≠ "record_id" ∧ c.1.name ∈ (relayRecordStatement P).updates := by
    intro c hc
    have hcolumn := (List.of_mem_zip hc).1
    revert hcolumn
    generalize c.1 = column
    simp only [relayRecordStatement, List.drop_succ_cons, List.drop_zero, List.mem_cons, List.not_mem_nil, or_false]
    rintro (rfl | rfl | rfl | rfl | rfl) <;> simp
  have hkeys : (∀ c ∈ rest, c.1.name = "record_id" → db.input c.1.type c.2 = some (row c.1.name)) ↔ True :=
    iff_true_intro fun c hc hkey => absurd hkey (hothers c hc).1
  have hkept : (∀ c ∈ rest, c.1.name ∉ (relayRecordStatement P).updates → db.input c.1.type c.2 = some (row c.1.name)) ↔ True :=
    iff_true_intro fun c hc hnot => absurd (hothers c hc).2 hnot
  rw [hsent]
  simp only [List.forall_mem_cons, hkept, show (relayRecordStatement P).key = "record_id" from rfl, hkeys]
  simp only [relayRecordStatement, List.mem_cons, String.reduceEq, List.not_mem_nil, or_self, not_false_eq_true, forall_true_left,
    false_implies, and_true]
  exact forall_congr' fun hid => and_iff_right hid

/-- **What the five upserts leave.** An accepted argument is stored, whatever was in the table, by every
builder but that of relay records: a relay record is stored unless there is a row with its key and
with another store or capsule. -/
theorem upserts_store (P : Platform) (db : Postgres) (record : Option Json) (options : Json) (op : StorageOperation) :
    (buildRelayRecordUpsert P record options = .ok op → ∃ id store capsule, property record "record_id" = some (.str id) ∧
      property record "store_id" = some (.str store) ∧ property record "capsule_id" = some (.str capsule) ∧
      ∀ t : SqlTable db op.statement.key, (∃ t', execute db op t = some t' ∧ Stored db op t t') ↔
        (execute db op t).isSome = true ∧ ∀ row ∈ t.rows, db.input .text (.text id) = some (row "record_id") →
          db.input .text (.text store) = some (row "store_id") ∧ db.input .text (.text capsule) = some (row "capsule_id")) ∧
    ∀ build ∈ [buildWitnessCheckpointUpsert P, buildRelayPairingUpsert P, buildGatewayPolicyVersionUpsert P,
        buildReadinessEvidenceRefUpsert P], build record options = .ok op →
      ∀ t : SqlTable db op.statement.key, (∃ t', execute db op t = some t' ∧ Stored db op t t') ↔ (execute db op t).isSome = true := by
  constructor
  · intro h
    obtain ⟨id, store, capsule, hid, hstore, hcapsule, hiff⟩ := relayRecord_stored_iff h
    exact ⟨id, store, capsule, hid, hstore, hcapsule, hiff db⟩
  · simp only [List.forall_mem_cons, List.not_mem_nil, false_implies, implies_true, and_true]
    refine ⟨fun h t => ?_, fun h t => ?_, fun h t => ?_, fun h t => ?_⟩
    · obtain ⟨schema, h⟩ := buildUpsert_ok h
      refine stored_of_built ?_ ?_ h t <;> simp [UpsertStatement.Sound, witnessCheckpointStatement]
    · obtain ⟨schema, h⟩ := buildUpsert_ok h
      refine stored_of_built ?_ ?_ h t <;> simp [UpsertStatement.Sound, relayPairingStatement]
    · obtain ⟨schema, h⟩ := buildUpsert_ok h
      refine stored_of_built ?_ ?_ h t <;> simp [UpsertStatement.Sound, gatewayPolicyVersionStatement]
    · obtain ⟨schema, h⟩ := buildReadiness_ok h
      refine stored_of_built ?_ ?_ h t <;> simp [UpsertStatement.Sound, readinessEvidenceRefStatement]

/-! ## A database that keeps values as they are sent -/

def plainDatabase : Postgres where
  Datum := SqlParam
  decEq := inferInstance
  input _ v := some v
  initial _ := .null
  admits _ _ := true

theorem plain_executes (op : StorageOperation) (t : SqlTable plainDatabase op.statement.key) :
    (execute plainDatabase op t).isSome = true := by
  have hread : readValues plainDatabase op = some (op.sent.map fun c => (c.1.name, c.2)) := List.mapM_pure
  rw [execute, hread]
  simp [plainDatabase]

/-- A record with a key that is taken, of another store. -/
def movedRecord : Json :=
  .obj [(js "record_id", .str (js "r1")), (js "store_id", .str (js "s2")), (js "capsule_id", .str (js "c1")),
    (js "encrypted_payload_hash", .str (sha256Prefix ++ List.replicate 64 48)), (js "payload_storage", .obj []),
    (js "signature", .obj [])]

/-- The row with its key. -/
def takenRow : SqlRow plainDatabase := fun c =>
  if c = "record_id" then .text (js "r1")
  else if c = "store_id" then .text (js "s1")
  else if c = "capsule_id" then .text (js "c1")
  else .null

theorem exists_of_isOk {ε α : Type} {x : Except ε α} (h : x.isOk = true) : ∃ a, x = .ok a := by
  cases x with
  | ok a => exact ⟨a, rfl⟩
  | error e => cases h

theorem movedRecord_built : ∃ op, buildRelayRecordUpsert reference (some movedRecord) (.obj []) = .ok op :=
  exists_of_isOk (by decide +kernel)

/-- **A record of another store** overwrites the row with its key, but not the row's store. -/
theorem relay_record_mixed : ∃ op, buildRelayRecordUpsert reference (some movedRecord) (.obj []) = .ok op ∧
    ∃ t : SqlTable plainDatabase op.statement.key, t.rows = [takenRow] ∧ (execute plainDatabase op t).isSome = true ∧
      ∀ t', execute plainDatabase op t = some t' → ¬ Stored plainDatabase op t t' := by
  obtain ⟨op, hop⟩ := movedRecord_built
  obtain ⟨id, store, capsule, hid, hstore, -, hiff⟩ := relayRecord_stored_iff hop
  refine ⟨op, hop, ⟨[takenRow], List.nodup_singleton _⟩, rfl, plain_executes op _, fun t' ht' hstored => ?_⟩
  obtain ⟨-, hrows⟩ := (hiff plainDatabase _).1 ⟨t', ht', hstored⟩
  obtain rfl : js "r1" = id := by simpa [property, movedRecord] using hid
  obtain rfl : js "s2" = store := by simpa [property, movedRecord] using hstore
  have htaken := (hrows takenRow List.mem_cons_self (by simp [plainDatabase, takenRow])).1
  simp [plainDatabase, takenRow] at htaken

def newPolicy : Json := .obj [(js "policy_hash", .str (sha256Prefix ++ List.replicate 64 48)), (js "policy", .obj [])]

/-- A policy version is stored, whatever is in the table. -/
theorem upserts_store_policy : ∃ op, buildGatewayPolicyVersionUpsert reference (some newPolicy) (.obj []) = .ok op ∧
    ∀ t, ∃ t', execute plainDatabase op t = some t' ∧ Stored plainDatabase op t t' := by
  obtain ⟨op, hop⟩ : ∃ op, buildGatewayPolicyVersionUpsert reference (some newPolicy) (.obj []) = .ok op :=
    exists_of_isOk (by decide +kernel)
  refine ⟨op, hop, fun t => ?_⟩
  exact ((upserts_store reference plainDatabase (some newPolicy) (.obj []) op).2 _ (by simp) hop t).2 (plain_executes op t)

end EnigmaMemory.Storage
