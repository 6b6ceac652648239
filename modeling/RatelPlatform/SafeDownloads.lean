import RatelPlatform.ExpenseRows
import RatelPlatform.StoredFiles

/-!
# What becomes of files

No object of the bucket is ever overwritten (`objects_written_once`): a key holds the id of
the file, which is new, and a key can be read back, whatever the file is called. So a download
URL that is given out leads to the very bytes that a scan found clean (`downloads_safe`), and
every run of an import job parses what was uploaded for it, with the mapping that was chosen
then (`imports_parse_uploads`).

The proofs look at one call at a time: the tables only grow (`FileTables.Grows`), and what a
task knows of them it keeps (`files`).
-/

namespace RatelPlatform

/-! ## Keys -/

/-- No text of an id begins another one: those of UUIDs have one length. -/
def PrefixFree (idText : Id → JsString) : Prop := ∀ a b, idText a <+: idText b → a = b

namespace PrefixFree

variable {idText : Id → JsString}

/-- An id is read off the beginning of a text. -/
theorem cancel (h : PrefixFree idText) {a b : Id} {s t : JsString}
    (heq : idText a ++ s = idText b ++ t) : a = b ∧ s = t := by
  have hab : a = b := by
    rcases List.append_eq_append_iff.mp heq with ⟨r, hb, -⟩ | ⟨r, ha, -⟩
    · exact h a b ⟨r, hb.symm⟩
    · exact (h b a ⟨r, ha.symm⟩).symm
  subst hab
  exact ⟨rfl, List.append_cancel_left heq⟩

/-- **The id of an attachment** can be read off its key. -/
theorem attachmentKey_eq (h : PrefixFree idText) {cmd cmd' : AttachFileCommand} {id id' : Id}
    (heq : attachmentKey idText cmd id = attachmentKey idText cmd' id') : id = id' := by
  simp only [attachmentKey, List.append_assoc] at heq
  obtain ⟨-, heq⟩ := h.cancel heq
  obtain ⟨-, heq⟩ := h.cancel (List.append_cancel_left heq)
  exact (h.cancel (List.append_cancel_left heq)).1

theorem importKey_eq (h : PrefixFree idText) {cmd cmd' : UploadCsvCommand} {id id' : Id}
    (heq : importKey idText cmd id = importKey idText cmd' id') : id = id' := by
  simp only [importKey, List.append_assoc] at heq
  obtain ⟨-, heq⟩ := h.cancel heq
  exact (h.cancel (List.append_cancel_left heq)).1

/-- No file of an import is stored where an attachment is. -/
theorem attachmentKey_ne_importKey (h : PrefixFree idText) {cmd : AttachFileCommand}
    {cmd' : UploadCsvCommand} {id id' : Id} :
    attachmentKey idText cmd id ≠ importKey idText cmd' id' := by
  intro heq
  simp only [attachmentKey, importKey, List.append_assoc] at heq
  obtain ⟨-, heq⟩ := h.cancel heq
  exact absurd heq (by simp [js, JsString.ofAscii])

end PrefixFree

/-! ## Growth -/

/-- What happens to the tables: nothing is lost, and of an attachment only the status
changes. By default nothing happens. -/
structure FileTables.Grows (t t' : FileTables) : Prop where
  objects : ∀ key object, t.objects.lookup key = some object →
    t'.objects.lookup key = some object := by exact fun _ _ h => h
  attachments : ∀ id row, t.attachments.lookup id = some row →
    ∃ scanStatus, t'.attachments.lookup id = some { row with scanStatus } := by
    exact fun _ row h => ⟨row.scanStatus, h⟩
  importJobs : ∀ id job, t.importJobs.lookup id = some job →
    t'.importJobs.lookup id = some job := by exact fun _ _ h => h
  attached : t.attached ⊆ t'.attached := by exact List.Subset.refl _
  uploaded : t.uploaded ⊆ t'.uploaded := by exact List.Subset.refl _
  saved : t.saved ⊆ t'.saved := by exact List.Subset.refl _
  scans : t.scans ⊆ t'.scans := by exact List.Subset.refl _
  granted : t.granted ⊆ t'.granted := by exact List.Subset.refl _
  parsed : t.parsed ⊆ t'.parsed := by exact List.Subset.refl _
  scanQueue : t.scanQueue ⊆ t'.scanQueue := by exact List.Subset.refl _
  expenses : ∀ id row, t.store.expenses.lookup id = some row →
    ∃ row', t'.store.expenses.lookup id = some row' ∧ row'.organizationId = row.organizationId := by
    exact fun _ row h => ⟨row, h, rfl⟩

instance : Preorder FileTables where
  le := FileTables.Grows
  le_refl t := ({} : FileTables.Grows t t)
  le_trans _ _ _ h h' := by
    refine ⟨fun key o ho => h'.objects key o (h.objects key o ho), fun id row hrow => ?_,
      fun id job hjob => h'.importJobs id job (h.importJobs id job hjob),
      List.Subset.trans h.attached h'.attached, List.Subset.trans h.uploaded h'.uploaded,
      List.Subset.trans h.saved h'.saved, List.Subset.trans h.scans h'.scans,
      List.Subset.trans h.granted h'.granted, List.Subset.trans h.parsed h'.parsed,
      List.Subset.trans h.scanQueue h'.scanQueue, fun id row hrow => ?_⟩
    · obtain ⟨_, hrow₁⟩ := h.attachments id row hrow
      obtain ⟨scanStatus, hrow₂⟩ := h'.attachments id _ hrow₁
      exact ⟨scanStatus, hrow₂⟩
    · obtain ⟨row₁, hrow₁, horg₁⟩ := h.expenses id row hrow
      obtain ⟨row₂, hrow₂, horg₂⟩ := h'.expenses id row₁ hrow₁
      exact ⟨row₂, hrow₂, horg₂.trans horg₁⟩

namespace FileTables

variable (idText : Id → JsString) (t : FileTables)

/-- The object is what was attached or uploaded under the key. -/
def Origin (key : JsString) (object : StoredObject) : Prop :=
  (∃ id cmd, (id, cmd) ∈ t.attached ∧ key = attachmentKey idText cmd id ∧
      object = ⟨cmd.buffer, cmd.contentType⟩) ∨
    ∃ id cmd mapping, (id, cmd, mapping) ∈ t.uploaded ∧ key = importKey idText cmd id ∧
      object = ⟨cmd.buffer, "text/csv"⟩

/-- A file that may be attached, to an expense of the organization. -/
structure Attachable (cmd : AttachFileCommand) : Prop where
  contentType : cmd.contentType ∈ ALLOWED_CONTENT_TYPES
  size : cmd.buffer.length ≤ MAX_FILE_SIZE_BYTES
  expense : ∃ row, t.store.expenses.lookup cmd.expenseId = some row ∧
    row.organizationId = cmd.organizationId

/-- The mapping is one that the organization had saved. -/
def Chosen (organizationId : Id) (mapping : Option SentMapping) : Prop :=
  ∀ m, mapping = some m → ∃ s ∈ t.saved, s.organizationId = organizationId ∧ s.mapping = m

/-- The attachment is the file that was attached under its id: it is stored, and has the status
that a scan of these very bytes gave. -/
def RecordsFile (id : Id) (row : AttachmentRow) : Prop :=
  ∃ cmd, (id, cmd) ∈ t.attached ∧
    row = { cmd.row idText id row.createdAt with scanStatus := row.scanStatus } ∧
    t.objects.lookup (attachmentKey idText cmd id) = some ⟨cmd.buffer, cmd.contentType⟩ ∧
    ∀ result : ScanResult, row.scanStatus = result.status →
      (cmd.buffer, result) ∈ t.scans ∧ id ∈ t.scanQueue

/-- The job is the upload under its id, which is stored. -/
def RecordsUpload (id : Id) (job : UploadedJobRow) : Prop :=
  ∃ cmd, (id, cmd, job.resolvedMapping) ∈ t.uploaded ∧
    job = ⟨cmd.organizationId, cmd.userId, importKey idText cmd id, job.resolvedMapping⟩ ∧
    t.objects.lookup (importKey idText cmd id) = some ⟨cmd.buffer, "text/csv"⟩

/-- A URL is given out for an attachment that the query names, once a scan has found it clean. -/
def Granted (query : GetAttachmentDownloadUrlQuery) (key : JsString) : Prop :=
  ∃ row cmd, t.attachments.lookup query.attachmentId = some row ∧
    row.expenseId = query.expenseId ∧ row.organizationId = query.organizationId ∧
    row.storageKey = key ∧ (query.attachmentId, cmd) ∈ t.attached ∧
    key = attachmentKey idText cmd query.attachmentId ∧ (cmd.buffer, .clean) ∈ t.scans

/-- What holds of the tables at any time. -/
structure Sound : Prop where
  wellFormed : t.store.WellFormed
  attachedOnce : (t.attached.map Prod.fst).Nodup
  uploadedOnce : (t.uploaded.map Prod.fst).Nodup
  objects : ∀ key object, t.objects.lookup key = some object → t.Origin idText key object
  attached : ∀ id cmd, (id, cmd) ∈ t.attached → t.Attachable cmd
  attachments : ∀ id row, t.attachments.lookup id = some row → t.RecordsFile idText id row
  granted : ∀ query key, (query, key) ∈ t.granted → t.Granted idText query key
  columnMappings : t.columnMappings ⊆ t.saved
  saved : ∀ s ∈ t.saved, validateColumnMappingShape s.mapping = []
  uploaded : ∀ id cmd mapping, (id, cmd, mapping) ∈ t.uploaded →
    validateCsvUpload cmd.contentType cmd.buffer = [] ∧
      t.Chosen cmd.organizationId mapping
  importJobs : ∀ id job, t.importJobs.lookup id = some job → t.RecordsUpload idText id job
  parsed : ∀ id bytes mapping, (id, bytes, mapping) ∈ t.parsed →
    ∃ cmd, (id, cmd, mapping) ∈ t.uploaded ∧ bytes = cmd.buffer

/-- What a task knows of the tables. -/
def Knows : FileTask → Prop
  | .loadingExpense cmd =>
    cmd.contentType ∈ ALLOWED_CONTENT_TYPES ∧ cmd.buffer.length ≤ MAX_FILE_SIZE_BYTES
  | .storingFile cmd id => (id, cmd) ∈ t.attached
  | .recordingFile cmd id => (id, cmd) ∈ t.attached ∧
      t.objects.lookup (attachmentKey idText cmd id) = some ⟨cmd.buffer, cmd.contentType⟩
  | .receivingFile cmd mapping => t.Chosen cmd.organizationId mapping
  | .storingCsv cmd mapping id => (id, cmd, mapping) ∈ t.uploaded
  | .recordingJob cmd mapping id => (id, cmd, mapping) ∈ t.uploaded ∧
      t.objects.lookup (importKey idText cmd id) = some ⟨cmd.buffer, "text/csv"⟩
  | .findingAttachment id => id ∈ t.scanQueue
  | .downloading id key => id ∈ t.scanQueue ∧
      ∃ cmd, (id, cmd) ∈ t.attached ∧ key = attachmentKey idText cmd id ∧
        t.objects.lookup key = some ⟨cmd.buffer, cmd.contentType⟩
  | .scanning id buffer => id ∈ t.scanQueue ∧ ∃ cmd, (id, cmd) ∈ t.attached ∧ buffer = cmd.buffer
  | .recordingScan id result => id ∈ t.scanQueue ∧
      ∃ cmd, (id, cmd) ∈ t.attached ∧ (cmd.buffer, result) ∈ t.scans
  | .loadingCsv id job => t.importJobs.lookup id = some job
  | _ => True

/-! ### What growth leaves -/

variable {idText} {t} {t' : FileTables}

theorem Origin.grow {key : JsString} {object : StoredObject} (h : t.Origin idText key object)
    (hle : t ≤ t') : t'.Origin idText key object := by
  rcases h with ⟨id, cmd, hmem, hkey, ho⟩ | ⟨id, cmd, mapping, hmem, hkey, ho⟩
  · exact .inl ⟨id, cmd, hle.attached hmem, hkey, ho⟩
  · exact .inr ⟨id, cmd, mapping, hle.uploaded hmem, hkey, ho⟩

theorem Attachable.grow {cmd : AttachFileCommand} (h : t.Attachable cmd) (hle : t ≤ t') :
    t'.Attachable cmd := by
  obtain ⟨row, hrow, horg⟩ := h.expense
  obtain ⟨row', hrow', horg'⟩ := hle.expenses _ row hrow
  exact ⟨h.contentType, h.size, row', hrow', horg'.trans horg⟩

theorem Chosen.grow {organizationId : Id} {mapping : Option SentMapping}
    (h : t.Chosen organizationId mapping) (hle : t ≤ t') : t'.Chosen organizationId mapping := by
  intro m hm
  obtain ⟨s, hs, hsaved⟩ := h m hm
  exact ⟨s, hle.saved hs, hsaved⟩

theorem RecordsFile.grow {id : Id} {row : AttachmentRow} (h : t.RecordsFile idText id row)
    (hle : t ≤ t') : t'.RecordsFile idText id row := by
  obtain ⟨cmd, hmem, hrow, hstored, hscans⟩ := h
  exact ⟨cmd, hle.attached hmem, hrow, hle.objects _ _ hstored, fun result hresult =>
    (hscans result hresult).imp (fun h => hle.scans h) fun h => hle.scanQueue h⟩

theorem RecordsUpload.grow {id : Id} {job : UploadedJobRow} (h : t.RecordsUpload idText id job)
    (hle : t ≤ t') : t'.RecordsUpload idText id job := by
  obtain ⟨cmd, hmem, hjob, hstored⟩ := h
  exact ⟨cmd, hle.uploaded hmem, hjob, hle.objects _ _ hstored⟩

theorem Granted.grow {query : GetAttachmentDownloadUrlQuery} {key : JsString}
    (h : t.Granted idText query key) (hle : t ≤ t') : t'.Granted idText query key := by
  obtain ⟨row, cmd, hrow, hexpense, horg, hkey, hmem, heq, hscan⟩ := h
  obtain ⟨scanStatus, hrow'⟩ := hle.attachments _ row hrow
  exact ⟨_, cmd, hrow', hexpense, horg, hkey, hle.attached hmem, heq, hle.scans hscan⟩

/-- **A task keeps what it knows.** -/
theorem Knows.grow {task : FileTask} (h : t.Knows idText task) (hle : t ≤ t') :
    t'.Knows idText task := by
  cases task with
  | idle | ended | resolvingMapping | queueingScan | queueingImport | loadingJob => exact trivial
  | loadingExpense cmd => exact h
  | storingFile cmd id => exact hle.attached h
  | recordingFile cmd id => exact ⟨hle.attached h.1, hle.objects _ _ h.2⟩
  | receivingFile cmd mapping => exact Chosen.grow h hle
  | storingCsv cmd mapping id => exact hle.uploaded h
  | recordingJob cmd mapping id => exact ⟨hle.uploaded h.1, hle.objects _ _ h.2⟩
  | findingAttachment id => exact hle.scanQueue h
  | downloading id key =>
    obtain ⟨hqueue, cmd, hmem, hkey, hstored⟩ := h
    exact ⟨hle.scanQueue hqueue, cmd, hle.attached hmem, hkey, hle.objects _ _ hstored⟩
  | scanning id buffer =>
    obtain ⟨hqueue, cmd, hmem, hbuffer⟩ := h
    exact ⟨hle.scanQueue hqueue, cmd, hle.attached hmem, hbuffer⟩
  | recordingScan id result =>
    obtain ⟨hqueue, cmd, hmem, hscan⟩ := h
    exact ⟨hle.scanQueue hqueue, cmd, hle.attached hmem, hle.scans hscan⟩
  | loadingCsv id job => exact hle.importJobs id job h

/-- What is new in the tables is as it should be; by default there is nothing new. -/
structure News (idText : Id → JsString) (t t' : FileTables) : Prop where
  wellFormed : t.store.WellFormed → t'.store.WellFormed := by exact fun h => h
  attachedOnce : (t.attached.map Prod.fst).Nodup → (t'.attached.map Prod.fst).Nodup := by
    exact fun h => h
  uploadedOnce : (t.uploaded.map Prod.fst).Nodup → (t'.uploaded.map Prod.fst).Nodup := by
    exact fun h => h
  objects : ∀ key object, t'.objects.lookup key = some object →
    t.objects.lookup key = some object ∨ t'.Origin idText key object := by
    exact fun _ _ h => .inl h
  attached : ∀ id cmd, (id, cmd) ∈ t'.attached → (id, cmd) ∈ t.attached ∨ t'.Attachable cmd := by
    exact fun _ _ h => .inl h
  attachments : ∀ id row, t'.attachments.lookup id = some row →
    t.attachments.lookup id = some row ∨ t'.RecordsFile idText id row := by
    exact fun _ _ h => .inl h
  granted : ∀ query key, (query, key) ∈ t'.granted →
    (query, key) ∈ t.granted ∨ t'.Granted idText query key := by exact fun _ _ h => .inl h
  columnMappings : t.columnMappings ⊆ t.saved → t'.columnMappings ⊆ t'.saved := by
    exact fun h => h
  saved : ∀ s ∈ t'.saved, s ∈ t.saved ∨ s ∈ t.columnMappings ∨
    validateColumnMappingShape s.mapping = [] := by exact fun _ h => .inl h
  uploaded : ∀ id cmd mapping, (id, cmd, mapping) ∈ t'.uploaded →
    (id, cmd, mapping) ∈ t.uploaded ∨
      validateCsvUpload cmd.contentType cmd.buffer = [] ∧
        t'.Chosen cmd.organizationId mapping := by exact fun _ _ _ h => .inl h
  importJobs : ∀ id job, t'.importJobs.lookup id = some job →
    t.importJobs.lookup id = some job ∨ t'.RecordsUpload idText id job := by
    exact fun _ _ h => .inl h
  parsed : ∀ id bytes mapping, (id, bytes, mapping) ∈ t'.parsed → (id, bytes, mapping) ∈ t.parsed ∨
    ∃ cmd, (id, cmd, mapping) ∈ t'.uploaded ∧ bytes = cmd.buffer := by exact fun _ _ _ h => .inl h

theorem Sound.renew (h : t.Sound idText) (hle : t ≤ t')
    (news : News idText t t') : t'.Sound idText where
  wellFormed := news.wellFormed h.wellFormed
  attachedOnce := news.attachedOnce h.attachedOnce
  uploadedOnce := news.uploadedOnce h.uploadedOnce
  objects key object ho := (news.objects key object ho).elim
    (fun ho => (h.objects key object ho).grow hle) id
  attached id cmd hmem := (news.attached id cmd hmem).elim
    (fun hmem => (h.attached id cmd hmem).grow hle) fun h => h
  attachments id row hrow := (news.attachments id row hrow).elim
    (fun hrow => (h.attachments id row hrow).grow hle) fun h => h
  granted query key hmem := (news.granted query key hmem).elim
    (fun hmem => (h.granted query key hmem).grow hle) fun h => h
  columnMappings := news.columnMappings h.columnMappings
  saved s hs := by
    rcases news.saved s hs with hs | hs | hvalid
    · exact h.saved s hs
    · exact h.saved s (h.columnMappings hs)
    · exact hvalid
  uploaded id cmd mapping hmem := (news.uploaded id cmd mapping hmem).elim
    (fun hmem => (h.uploaded id cmd mapping hmem).imp_right fun hchosen => hchosen.grow hle)
    fun h => h
  importJobs id job hjob := (news.importJobs id job hjob).elim
    (fun hjob => (h.importJobs id job hjob).grow hle) fun h => h
  parsed id bytes mapping hmem := by
    rcases news.parsed id bytes mapping hmem with hmem | hnew
    · obtain ⟨cmd, hcmd, hbytes⟩ := h.parsed id bytes mapping hmem
      exact ⟨cmd, hle.uploaded hcmd, hbytes⟩
    · exact hnew

/-- **The tables grow**, and what is new is as it should be. -/
theorem Sound.grow (h : t.Sound idText) (hle : t.Grows t')
    (news : News idText t t') : t'.Sound idText ∧ t ≤ t' :=
  ⟨h.renew hle news, hle⟩

/-! ### Calls -/

/-- **A key says what is stored under it.** -/
theorem Sound.origin_unique (h : t.Sound idText) (hfree : PrefixFree idText)
    {key : JsString} {o o' : StoredObject} (ho : t.Origin idText key o)
    (ho' : t.Origin idText key o') : o = o' := by
  rcases ho with ⟨id, cmd, hmem, hkey, rfl⟩ | ⟨id, cmd, mapping, hmem, hkey, rfl⟩ <;>
    rcases ho' with ⟨id', cmd', hmem', hkey', rfl⟩ | ⟨id', cmd', mapping', hmem', hkey', rfl⟩
  · obtain rfl := hfree.attachmentKey_eq (hkey.symm.trans hkey')
    obtain rfl := congrArg Prod.snd (List.inj_on_of_nodup_map h.attachedOnce hmem hmem' rfl)
    rfl
  · exact absurd (hkey.symm.trans hkey') hfree.attachmentKey_ne_importKey
  · exact absurd (hkey'.symm.trans hkey) hfree.attachmentKey_ne_importKey
  · obtain rfl := hfree.importKey_eq (hkey.symm.trans hkey')
    obtain rfl := congrArg (fun r : Id × UploadCsvCommand × Option SentMapping => r.2.1)
      (List.inj_on_of_nodup_map h.uploadedOnce hmem hmem' rfl)
    rfl

/-- An object is stored where there was none, or the same. -/
theorem Sound.store (h : t.Sound idText) (hfree : PrefixFree idText) {key : JsString}
    {object : StoredObject} (horigin : t.Origin idText key object) :
    ({ t with objects := t.objects.insert key object } : FileTables).Sound idText ∧
      t ≤ { t with objects := t.objects.insert key object } := by
  refine h.grow { objects := fun key' o ho => ?_ } { objects := fun key' o ho => ?_ }
  · rw [Table.lookup_insert_ite]
    split_ifs with hkey
    · subst hkey
      rw [h.origin_unique hfree horigin (h.objects key' o ho)]
    · exact ho
  · rcases Table.lookup_insert_cases ho with ⟨rfl, rfl⟩ | ⟨-, ho⟩
    · exact .inr horigin
    · exact .inl ho

/-- A new id makes the list longer by one. -/
theorem nodup_append_new {ρ : Type} {l : List (Id × ρ)} {id : Id} {r : ρ}
    (h : (l.map Prod.fst).Nodup) (hid : ∀ x ∈ l, x.1 ≠ id) :
    ((l ++ [(id, r)]).map Prod.fst).Nodup := by
  rw [List.map_append, List.nodup_append]
  refine ⟨h, List.nodup_singleton _, ?_⟩
  rintro a ha b hb rfl
  obtain ⟨x, hx, rfl⟩ := List.mem_map.mp ha
  exact hid x hx (List.mem_singleton.mp hb)

/-- The file is attached from now on. -/
theorem Sound.attach (h : t.Sound idText) {id : Id} {cmd : AttachFileCommand}
    (hid : t.NewId id) (hcmd : t.Attachable cmd) :
    ({ t with attached := t.attached ++ [(id, cmd)] } : FileTables).Sound idText ∧
      t ≤ { t with attached := t.attached ++ [(id, cmd)] } := by
  refine h.grow { attached := List.subset_append_left _ _ }
    { attachedOnce := fun h => nodup_append_new h hid.1, attached := fun id' cmd' hmem => ?_ }
  rcases List.mem_append.mp hmem with hmem | hmem
  · exact .inl hmem
  · cases List.mem_singleton.mp hmem
    exact .inr ⟨hcmd.contentType, hcmd.size, hcmd.expense⟩

theorem Sound.upload (h : t.Sound idText) {id : Id} {cmd : UploadCsvCommand}
    {mapping : Option SentMapping} (hid : t.NewId id)
    (hvalid : validateCsvUpload cmd.contentType cmd.buffer = [])
    (hchosen : t.Chosen cmd.organizationId mapping) :
    ({ t with uploaded := t.uploaded ++ [(id, cmd, mapping)] } : FileTables).Sound idText ∧
      t ≤ { t with uploaded := t.uploaded ++ [(id, cmd, mapping)] } := by
  refine h.grow { uploaded := List.subset_append_left _ _ }
    { uploadedOnce := fun h => nodup_append_new h hid.2
      uploaded := fun id' cmd' mapping' hmem => ?_ }
  rcases List.mem_append.mp hmem with hmem | hmem
  · exact .inl hmem
  · cases List.mem_singleton.mp hmem
    exact .inr ⟨hvalid, hchosen⟩

/-- The row of a file that is stored. -/
theorem Sound.insertFile (h : t.Sound idText) {id : Id} {cmd : AttachFileCommand}
    {now : JsDate} (hnew : id ∉ t.attachments) (hmem : (id, cmd) ∈ t.attached)
    (hstored : t.objects.lookup (attachmentKey idText cmd id) =
      some ⟨cmd.buffer, cmd.contentType⟩) :
    let t' : FileTables := { t with attachments := t.attachments.insert id (cmd.row idText id now) }
    t'.Sound idText ∧ t ≤ t' := by
  refine h.grow { attachments := fun id' row hrow => ?_ } { attachments := fun id' row hrow => ?_ }
  · refine ⟨row.scanStatus, ?_⟩
    rw [Finmap.lookup_insert_of_ne]
    · exact hrow
    · rintro rfl
      exact hnew (Finmap.mem_of_lookup_eq_some hrow)
  · rcases Table.lookup_insert_cases hrow with ⟨rfl, rfl⟩ | ⟨-, hrow⟩
    · refine .inr ⟨cmd, hmem, rfl, hstored, fun result hresult => ?_⟩
      cases result <;> cases hresult
    · exact .inl hrow

/-- The result of a scan is written. -/
theorem Sound.writeScan (h : t.Sound idText) {id : Id} {result : ScanResult}
    (hqueue : id ∈ t.scanQueue)
    (hscan : ∃ cmd, (id, cmd) ∈ t.attached ∧ (cmd.buffer, result) ∈ t.scans) :
    let t' : FileTables := { t with
      attachments := Table.update t.attachments id fun row =>
        { row with scanStatus := result.status } }
    t'.Sound idText ∧ t ≤ t' := by
  refine h.grow { attachments := fun id' row hrow => ?_ } { attachments := fun id' row hrow => ?_ }
  · rw [Table.lookup_update]
    split_ifs with hid
    · subst hid
      exact ⟨result.status, by rw [hrow]; rfl⟩
    · exact ⟨row.scanStatus, hrow⟩
  · rw [Table.lookup_update] at hrow
    split_ifs at hrow with hid
    · subst hid
      obtain ⟨old, hold, rfl⟩ := Option.map_eq_some_iff.mp hrow
      obtain ⟨cmd, hmem, hrow, hstored, -⟩ := h.attachments id' old hold
      obtain ⟨cmd', hmem', hscan⟩ := hscan
      obtain rfl := congrArg Prod.snd (List.inj_on_of_nodup_map h.attachedOnce hmem hmem' rfl)
      refine .inr ⟨cmd, hmem, ?_, hstored, fun result' hresult => ⟨?_, hqueue⟩⟩
      · exact congrArg (fun r : AttachmentRow => { r with scanStatus := result.status }) hrow
      · obtain rfl := ScanResult.status_injective hresult
        exact hscan
    · exact .inl hrow

/-- The row of an upload that is stored. -/
theorem Sound.insertJob (h : t.Sound idText) {id : Id} {cmd : UploadCsvCommand}
    {mapping : Option SentMapping} (hnew : id ∉ t.importJobs)
    (hmem : (id, cmd, mapping) ∈ t.uploaded)
    (hstored : t.objects.lookup (importKey idText cmd id) = some ⟨cmd.buffer, "text/csv"⟩) :
    let t' : FileTables := { t with
      importJobs := t.importJobs.insert id
        ⟨cmd.organizationId, cmd.userId, importKey idText cmd id, mapping⟩ }
    t'.Sound idText ∧ t ≤ t' := by
  refine h.grow { importJobs := fun id' job hjob => ?_ } { importJobs := fun id' job hjob => ?_ }
  · rw [Finmap.lookup_insert_of_ne]
    · exact hjob
    · rintro rfl
      exact hnew (Finmap.mem_of_lookup_eq_some hjob)
  · rcases Table.lookup_insert_cases hjob with ⟨rfl, rfl⟩ | ⟨-, hjob⟩
    · exact .inr ⟨cmd, hmem, rfl, hstored⟩
    · exact .inl hjob

/-- The file of an upload is parsed. -/
theorem Sound.parse (h : t.Sound idText) {id : Id} {cmd : UploadCsvCommand}
    {mapping : Option SentMapping} (hmem : (id, cmd, mapping) ∈ t.uploaded) :
    ({ t with parsed := t.parsed ++ [(id, cmd.buffer, mapping)] } : FileTables).Sound idText ∧
      t ≤ { t with parsed := t.parsed ++ [(id, cmd.buffer, mapping)] } := by
  refine h.grow { parsed := List.subset_append_left _ _ }
    { parsed := fun id' bytes mapping' hparsed => ?_ }
  rcases List.mem_append.mp hparsed with hparsed | hparsed
  · exact .inl hparsed
  · cases List.mem_singleton.mp hparsed
    exact .inr ⟨cmd, hmem, rfl⟩

/-- **A call that goes through** leaves the tables sound, and the task with what it has to
know. -/
theorem performed (hfree : PrefixFree idText) {env : FileEnv} {task task' : FileTask}
    (h : t.Sound idText) (hid : t.NewId env.uuid) (hknows : t.Knows idText task)
    (hok : task.perform idText env t = .ok (t', task')) :
    t'.Sound idText ∧ t ≤ t' ∧ t'.Knows idText task' := by
  cases task with
  | idle =>
    cases hok
    exact ⟨h, le_rfl, trivial⟩
  | ended answer =>
    cases hok
    exact ⟨h, le_rfl, trivial⟩
  | loadingExpense cmd =>
    simp only [FileTask.perform] at hok
    split at hok
    · next hfind =>
      cases hok
      obtain ⟨⟨row, hrow, horg, -⟩, -⟩ := findExpense_ok.mp hfind
      obtain ⟨hsound, hle⟩ := h.attach hid ⟨hknows.1, hknows.2, row, hrow, horg⟩
      exact ⟨hsound, hle, List.mem_append_right _ (List.mem_singleton_self _)⟩
    · cases hok
  | storingFile cmd id =>
    cases hok
    obtain ⟨hsound, hle⟩ := h.store hfree (.inl ⟨id, cmd, hknows, rfl, rfl⟩)
    exact ⟨hsound, hle, hknows, Finmap.lookup_insert _⟩
  | recordingFile cmd id =>
    simp only [FileTask.perform] at hok
    split_ifs at hok with hnew
    cases hok
    obtain ⟨hsound, hle⟩ := h.insertFile hnew hknows.1 hknows.2
    exact ⟨hsound, hle, trivial⟩
  | queueingScan id =>
    cases hok
    have hgrows : t.Grows { t with scanQueue := t.scanQueue ++ [id] } :=
      { scanQueue := List.subset_append_left _ _ }
    obtain ⟨hsound, hle⟩ := h.grow hgrows {}
    exact ⟨hsound, hle, trivial⟩
  | resolvingMapping cmd mappingId =>
    simp only [FileTask.perform] at hok
    split at hok
    · next s hfind =>
      cases hok
      have hsaved := h.columnMappings (List.mem_of_find?_eq_some hfind)
      refine ⟨h, le_rfl, fun m hm => ⟨s, hsaved, ?_, ?_⟩⟩
      · have hfound := List.find?_some hfind
        exact (of_decide_eq_true hfound).2
      · exact Option.some.inj hm
    · cases hok
  | receivingFile cmd mapping =>
    simp only [FileTask.perform] at hok
    split at hok
    · next hvalid =>
      cases hok
      obtain ⟨hsound, hle⟩ := h.upload hid hvalid hknows
      exact ⟨hsound, hle, List.mem_append_right _ (List.mem_singleton_self _)⟩
    · cases hok
  | storingCsv cmd mapping id =>
    cases hok
    obtain ⟨hsound, hle⟩ := h.store hfree (.inr ⟨id, cmd, mapping, hknows, rfl, rfl⟩)
    exact ⟨hsound, hle, hknows, Finmap.lookup_insert _⟩
  | recordingJob cmd mapping id =>
    simp only [FileTask.perform] at hok
    split_ifs at hok with hnew
    cases hok
    obtain ⟨hsound, hle⟩ := h.insertJob hnew hknows.1 hknows.2
    exact ⟨hsound, hle, trivial⟩
  | queueingImport id =>
    cases hok
    have hgrows : t.Grows { t with importQueue := t.importQueue ++ [id] } := {}
    obtain ⟨hsound, hle⟩ := h.grow hgrows {}
    exact ⟨hsound, hle, trivial⟩
  | findingAttachment id =>
    simp only [FileTask.perform] at hok
    split at hok
    · cases hok
      exact ⟨h, le_rfl, trivial⟩
    · next row hrow =>
      cases hok
      obtain ⟨cmd, hmem, heq, hstored, -⟩ := h.attachments id row hrow
      have hkey : row.storageKey = attachmentKey idText cmd id := by rw [heq]; rfl
      exact ⟨h, le_rfl, hknows, cmd, hmem, hkey, hkey ▸ hstored⟩
  | downloading id key =>
    simp only [FileTask.perform] at hok
    obtain ⟨hqueue, cmd, hmem, hkey, hstored⟩ := hknows
    rw [hstored] at hok
    cases hok
    exact ⟨h, le_rfl, hqueue, cmd, hmem, rfl⟩
  | scanning id buffer =>
    cases hok
    obtain ⟨hqueue, cmd, hmem, rfl⟩ := hknows
    have hgrows : t.Grows { t with scans := t.scans ++ [(cmd.buffer, env.verdict)] } :=
      { scans := List.subset_append_left _ _ }
    obtain ⟨hsound, hle⟩ := h.grow hgrows {}
    exact ⟨hsound, hle, hqueue, cmd, hmem, List.mem_append_right _ (List.mem_singleton_self _)⟩
  | recordingScan id result =>
    simp only [FileTask.perform] at hok
    split_ifs at hok
    cases hok
    obtain ⟨hsound, hle⟩ := h.writeScan hknows.1 hknows.2
    exact ⟨hsound, hle, trivial⟩
  | loadingJob id =>
    simp only [FileTask.perform] at hok
    split at hok
    · next job hjob =>
      cases hok
      exact ⟨h, le_rfl, hjob⟩
    · cases hok
  | loadingCsv id job =>
    obtain ⟨cmd, hmem, hjob, hstored⟩ := h.importJobs id job hknows
    have hkey : job.storageKey = importKey idText cmd id := congrArg UploadedJobRow.storageKey hjob
    simp only [FileTask.perform] at hok
    rw [hkey, hstored] at hok
    cases hok
    obtain ⟨hsound, hle⟩ := h.parse hmem
    exact ⟨hsound, hle, trivial⟩

/-- Whatever a task does, and however its call ends. -/
theorem called (hfree : PrefixFree idText) {l : FileCall} {task task' : FileTask}
    (h : t.Sound idText) (hknows : t.Knows idText task)
    (hcall : callFile idText t task l = some (t', task')) :
    t'.Sound idText ∧ t ≤ t' ∧ t'.Knows idText task' := by
  cases l with
  | attach cmd =>
    cases task <;> simp only [callFile, reduceCtorEq, Option.some.injEq, Prod.mk.injEq] at hcall
    obtain ⟨rfl, rfl⟩ := hcall
    refine ⟨h, le_rfl, ?_⟩
    simp only [AttachFileHandler.execute]
    split_ifs with htype hsize
    · exact trivial
    · exact ⟨htype, not_lt.mp hsize⟩
    · exact trivial
  | upload cmd =>
    cases task <;> simp only [callFile, reduceCtorEq, Option.some.injEq, Prod.mk.injEq] at hcall
    obtain ⟨rfl, rfl⟩ := hcall
    refine ⟨h, le_rfl, ?_⟩
    simp only [ImportController.create]
    split
    · exact trivial
    · exact fun _ hnone => nomatch hnone
  | scan id =>
    cases task <;> simp only [callFile, reduceCtorEq] at hcall
    split_ifs at hcall with hid
    cases hcall
    exact ⟨h, le_rfl, hid⟩
  | importFile id =>
    cases task <;> simp only [callFile, reduceCtorEq] at hcall
    split_ifs at hcall with hid
    cases hcall
    exact ⟨h, le_rfl, trivial⟩
  | crash =>
    cases hcall
    exact ⟨h, le_rfl, trivial⟩
  | call env outcome =>
    simp only [callFile] at hcall
    split_ifs at hcall with hid
    rcases hperform : task.perform idText env t with e | ⟨t₁, task₁⟩
    · rw [hperform] at hcall
      cases outcome <;> cases hcall <;> exact ⟨h, le_rfl, trivial⟩
    · obtain ⟨hsound, hle, hknows'⟩ := performed hfree h hid hknows hperform
      rw [hperform] at hcall
      cases outcome with
      | «returns» =>
        cases hcall
        exact ⟨hsound, hle, hknows'⟩
      | fails message =>
        cases hcall
        exact ⟨h, le_rfl, trivial⟩
      | loses message =>
        cases hcall
        exact ⟨hsound, hle, trivial⟩

/-! ### What else happens -/

/-- What is saved is as it was, or is valid. -/
theorem mem_saveColumnMapping {rows rows' : List SavedMapping} {uuid : Id} {cmd : ColumnMappingRow}
    (h : saveColumnMapping rows uuid cmd = .ok rows') {s : SavedMapping} (hs : s ∈ rows') :
    s ∈ rows ∨ validateColumnMappingShape s.mapping = [] := by
  simp only [saveColumnMapping] at h
  split at h
  · next hvalid =>
    split_ifs at h <;> cases h
    · obtain ⟨row, hrow, rfl⟩ := List.mem_map.mp hs
      split_ifs
      · exact .inr hvalid
      · exact .inl hrow
    · rcases List.mem_append.mp hs with hs | hs
      · exact .inl hs
      · cases List.mem_singleton.mp hs
        exact .inr hvalid
  · cases h

theorem deleteColumnMapping_subset {rows rows' : List SavedMapping}
    {cmd : DeleteColumnMappingCommand} (h : deleteColumnMapping rows cmd = .ok rows') :
    rows' ⊆ rows := by
  simp only [deleteColumnMapping] at h
  split_ifs at h
  cases h
  exact List.filter_subset_self _

/-- A URL is only given out for what a scan found clean. -/
theorem Sound.granted_of_download (h : t.Sound idText)
    {query : GetAttachmentDownloadUrlQuery} {key fileName : JsString}
    (hurl : getAttachmentDownloadUrl t query = .ok (key, fileName)) :
    t.Granted idText query key := by
  simp only [getAttachmentDownloadUrl] at hurl
  split at hurl
  · cases hurl
  · next row hfound =>
    obtain ⟨hrow, hnamed⟩ := Option.filter_eq_some_iff.mp hfound
    obtain ⟨hexpense, horg⟩ := of_decide_eq_true hnamed
    split_ifs at hurl with hclean
    cases hurl
    obtain ⟨cmd, hmem, heq, -, hscan⟩ := h.attachments _ row hrow
    refine ⟨row, cmd, hrow, hexpense, horg, rfl, hmem, ?_, (hscan .clean (not_not.mp hclean)).1⟩
    exact congrArg AttachmentRow.storageKey heq

theorem happened {l : FileEvent} (h : t.Sound idText)
    (hevent : fileEvent t l = some t') : t'.Sound idText ∧ t ≤ t' := by
  cases l with
  | serve request =>
    obtain ⟨store, hn, rfl⟩ := Option.map_eq_some_iff.mp hevent
    refine h.grow { expenses := fun id row hrow => ?_ } { wellFormed := fun hwf => hwf.next hn }
    obtain ⟨row', hrow', _, _, rfl⟩ := (expenses_next h.wellFormed hn).1 id row hrow
    exact ⟨_, hrow', rfl⟩
  | saveMapping uuid cmd =>
    simp only [fileEvent] at hevent
    split at hevent
    · next rows hsave =>
      cases hevent
      refine h.grow { saved := List.subset_append_left _ _ }
        { columnMappings := fun _ => List.subset_append_right _ _, saved := fun s hs => ?_ }
      rcases List.mem_append.mp hs with hs | hs
      · exact .inl hs
      · exact .inr (mem_saveColumnMapping hsave hs)
    · cases hevent
      exact ⟨h, le_rfl⟩
  | deleteMapping cmd =>
    simp only [fileEvent] at hevent
    split at hevent
    · next rows hdelete =>
      cases hevent
      exact h.grow {} { columnMappings := fun hsaved =>
        List.Subset.trans (deleteColumnMapping_subset hdelete) hsaved }
    · cases hevent
      exact ⟨h, le_rfl⟩
  | download query =>
    simp only [fileEvent] at hevent
    split at hevent
    · next key fileName hurl =>
      cases hevent
      refine h.grow { granted := List.subset_append_left _ _ } { granted := fun q k hmem => ?_ }
      rcases List.mem_append.mp hmem with hmem | hmem
      · exact .inl hmem
      · cases List.mem_singleton.mp hmem
        exact .inr (h.granted_of_download hurl)
    · cases hevent
      exact ⟨h, le_rfl⟩

end FileTables

/-! ## Runs -/

/-- What is sound of the tables and known by the tasks, at every step. -/
def files {idText : Id → JsString} (hfree : PrefixFree idText) : (fileMachine idText).Rely where
  Sound t := t.Sound idText
  Knows t task := t.Knows idText task
  stable hle h := h.grow hle
  call h hknows hcall := FileTables.called hfree h hknows hcall
  event h hevent := FileTables.happened h hevent

theorem files_initial {idText : Id → JsString} (hfree : PrefixFree idText)
    (administration : Administration) :
    (files hfree).Holds (fileSystem administration) := by
  refine ⟨?_, fun _ => trivial⟩
  exact {
    wellFormed := Store.wellFormed_initial administration
    attachedOnce := List.nodup_nil
    uploadedOnce := List.nodup_nil
    objects := nofun
    attached := nofun
    attachments := fun _ _ h => by cases h
    granted := nofun
    columnMappings := List.Subset.refl _
    saved := nofun
    uploaded := nofun
    importJobs := nofun
    parsed := nofun }

section

variable {idText : Id → JsString} {administration : Administration}
  {ls ls' : List (TaskLabel FileCall FileEvent)} {σ σ' : TaskState FileTables FileTask}

/-- The runs of the requests and workers that have to do with files. -/
abbrev FileRuns (idText : Id → JsString) :
    TaskState FileTables FileTask → List (TaskLabel FileCall FileEvent) →
      TaskState FileTables FileTask → Prop :=
  Reaches (fileMachine idText).next fun _ _ => True

/-- **Objects are written once**: what is stored under a key at some time stays there, whatever
is attached, uploaded, repeated or interrupted, and however the files are called. -/
theorem objects_written_once (hfree : PrefixFree idText)
    (hr : FileRuns idText (fileSystem administration) ls σ)
    (hr' : FileRuns idText σ ls' σ') {key : JsString} {object : StoredObject}
    (hstored : σ.shared.objects.lookup key = some object) :
    σ'.shared.objects.lookup key = some object := by
  have hholds := ((files hfree).reaches (files_initial hfree administration) hr).1
  exact ((files hfree).reaches hholds hr').2.objects key object hstored

/-- **Downloads are safe**: a URL that was given out, at any time, leads to the bytes that were
attached to the expense the query names, which is the organization's. They are of a type and a
size that may be attached, and a scan of these very bytes found them clean. -/
theorem downloads_safe (hfree : PrefixFree idText)
    (hr : FileRuns idText (fileSystem administration) ls σ)
    {query : GetAttachmentDownloadUrlQuery} {key : JsString}
    (hgranted : (query, key) ∈ σ.shared.granted) :
    ∃ cmd object, (query.attachmentId, cmd) ∈ σ.shared.attached ∧
      cmd.expenseId = query.expenseId ∧ cmd.organizationId = query.organizationId ∧
      (∃ row, σ.shared.store.expenses.lookup query.expenseId = some row ∧
        row.organizationId = query.organizationId) ∧
      σ.shared.objects.lookup key = some object ∧ object = ⟨cmd.buffer, cmd.contentType⟩ ∧
      object.contentType ∈ ALLOWED_CONTENT_TYPES ∧ object.body.length ≤ MAX_FILE_SIZE_BYTES ∧
      (object.body, .clean) ∈ σ.shared.scans := by
  have hsound := ((files hfree).reaches (files_initial hfree administration) hr).1.1
  obtain ⟨row, cmd, hrow, hexpense, horg, -, hmem, rfl, hscan⟩ := hsound.granted query key hgranted
  obtain ⟨cmd', hmem', heq, hstored, -⟩ := hsound.attachments _ row hrow
  obtain rfl := congrArg Prod.snd (List.inj_on_of_nodup_map hsound.attachedOnce hmem hmem' rfl)
  obtain ⟨htype, hsize, hexists⟩ := hsound.attached _ cmd hmem
  have hexpense' : cmd.expenseId = query.expenseId :=
    (congrArg AttachmentRow.expenseId heq).symm.trans hexpense
  have horg' : cmd.organizationId = query.organizationId :=
    (congrArg AttachmentRow.organizationId heq).symm.trans horg
  rw [hexpense', horg'] at hexists
  exact ⟨cmd, _, hmem, hexpense', horg', hexists, hstored, rfl, htype, hsize, hscan⟩

/-- **Imports parse what was uploaded**: every run of a job gives the adapter the bytes of the
upload, which were accepted, and the mapping that was chosen with it: a valid one, saved by the
organization, whatever has become of it since. -/
theorem imports_parse_uploads (hfree : PrefixFree idText)
    (hr : FileRuns idText (fileSystem administration) ls σ) {id : Id} {bytes : Bytes}
    {mapping : Option SentMapping} (hparsed : (id, bytes, mapping) ∈ σ.shared.parsed) :
    LooksLikeText bytes ∧
      (∀ m, mapping = some m → validateColumnMappingShape m = []) ∧
      (∃ cmd, (id, cmd, mapping) ∈ σ.shared.uploaded ∧ bytes = cmd.buffer ∧
        ∀ m, mapping = some m → ∃ s ∈ σ.shared.saved,
          s.organizationId = cmd.organizationId ∧ s.mapping = m) ∧
      ∀ bytes' mapping', (id, bytes', mapping') ∈ σ.shared.parsed →
        bytes' = bytes ∧ mapping' = mapping := by
  have hsound := ((files hfree).reaches (files_initial hfree administration) hr).1.1
  obtain ⟨cmd, hmem, rfl⟩ := hsound.parsed id bytes mapping hparsed
  obtain ⟨hvalid, hchosen⟩ := hsound.uploaded id cmd mapping hmem
  refine ⟨(validateCsvUpload_eq_nil_iff.mp hvalid).2, fun m hm => ?_, ⟨cmd, hmem, rfl, hchosen⟩,
    fun bytes' mapping' hparsed' => ?_⟩
  · obtain ⟨s, hs, -, rfl⟩ := hchosen m hm
    exact hsound.saved s hs
  · obtain ⟨cmd', hmem', rfl⟩ := hsound.parsed id bytes' mapping' hparsed'
    cases List.inj_on_of_nodup_map hsound.uploadedOnce hmem hmem' rfl
    exact ⟨rfl, rfl⟩

end

/-! ## A receipt and a file of expenses -/

namespace Sample

/-- As many strokes, and a full stop. -/
def strokes (id : Id) : JsString := List.replicate id 0x7c ++ [0x2e]

theorem strokes_prefixFree : PrefixFree strokes := by
  rintro a b ⟨r, h⟩
  simp only [strokes, List.append_assoc] at h
  induction a generalizing b with
  | zero =>
    rcases b with _ | b
    · rfl
    · rw [List.replicate_succ] at h
      exact absurd (List.cons.inj h).1 (by decide)
  | succ a ih =>
    rcases b with _ | b
    · rw [List.replicate_succ] at h
      exact absurd (List.cons.inj h).1 (by decide)
    · rw [List.replicate_succ, List.replicate_succ] at h
      rw [ih b (List.cons.inj h).2]

/-- A receipt of the expense 101. -/
def receipt : AttachFileCommand :=
  ⟨101, 1, 10, js "../receipt.pdf", "application/pdf", [0x25, 0x50]⟩

/-- Another receipt of the expense, in a file of the same name. -/
def otherReceipt : AttachFileCommand :=
  ⟨101, 1, 10, js "../receipt.pdf", "application/pdf", [0x25, 0x51]⟩

/-- A file with the heading of a column. -/
def csvFile : UploadCsvCommand := ⟨1, 10, none, some "Text/CSV; charset=utf-8", [0x61]⟩

/-- The same file, to be read with the mapping 50. -/
def mappedCsvFile : UploadCsvCommand := { csvFile with mappingId := some 50 }

/-- A call that goes through, drawing the id `uuid`, with a scanner that finds nothing. -/
def goesThrough (task : ℕ) (uuid : Id) : TaskLabel FileCall FileEvent :=
  .call task (.call ⟨⟨noon, uuid, 0⟩, .clean⟩ .returns)

/-- An expense is entered, and the receipt attached to it. -/
def attaching : List (TaskLabel FileCall FileEvent) :=
  [.event (.serve openJanuary), .event (.serve (create 101 5000)), .call 0 (.attach receipt),
    goesThrough 0 200] ++ List.replicate 3 (goesThrough 0 201)

/-- It is scanned and downloaded. -/
def scanning : List (TaskLabel FileCall FileEvent) :=
  .call 1 (.scan 200) :: List.replicate 4 (goesThrough 1 201) ++ [.event (.download ⟨101, 200, 1⟩)]

/-- The other receipt is attached, and the file uploaded. -/
def storingMore : List (TaskLabel FileCall FileEvent) :=
  [.call 2 (.attach otherReceipt), goesThrough 2 202] ++ List.replicate 3 (goesThrough 2 203) ++
    [.call 3 (.upload csvFile), goesThrough 3 300] ++ List.replicate 3 (goesThrough 3 301)

/-- A mapping is saved and the file uploaded to be read with it. The mapping is deleted, and the
file parsed twice. -/
def importing : List (TaskLabel FileCall FileEvent) :=
  [.event (.saveMapping 50 ⟨1, "bank", .object (mappingWith "Dept")⟩),
      .call 0 (.upload mappedCsvFile), goesThrough 0 300, goesThrough 0 300] ++
    List.replicate 3 (goesThrough 0 301) ++
    [.event (.deleteMapping ⟨1, 50⟩), .call 1 (.importFile 300), goesThrough 1 301,
      goesThrough 1 301, .call 2 (.importFile 300), goesThrough 2 301, goesThrough 2 301]

end Sample

open Sample in
/-- Nothing becomes of the receipt in the bucket while it is scanned and downloaded, and others
are stored beside it. -/
theorem objects_written_once_sample : ∃ σ σ',
    FileRuns strokes (fileSystem Sample.administration) attaching σ ∧
      FileRuns strokes σ (scanning ++ storingMore) σ' ∧
        σ'.shared.objects.lookup (attachmentKey strokes otherReceipt 202) =
          some ⟨[0x25, 0x51], "application/pdf"⟩ ∧
        σ'.shared.objects.lookup (importKey strokes csvFile 300) = some ⟨[0x61], "text/csv"⟩ ∧
        σ'.shared.objects.lookup (attachmentKey strokes receipt 200) =
          some ⟨[0x25, 0x50], "application/pdf"⟩ := by
  have hrun : (runLabels (fileMachine strokes).next (fileSystem Sample.administration)
      attaching).map (fun σ => (σ.shared.objects.lookup (attachmentKey strokes receipt 200),
        (runLabels (fileMachine strokes).next σ (scanning ++ storingMore)).map fun σ' =>
          (σ'.shared.objects.lookup (attachmentKey strokes otherReceipt 202),
            σ'.shared.objects.lookup (importKey strokes csvFile 300)))) =
      some (some ⟨[0x25, 0x50], "application/pdf"⟩,
        some (some ⟨[0x25, 0x51], "application/pdf"⟩, some ⟨[0x61], "text/csv"⟩)) := by
    decide +kernel
  obtain ⟨σ, hσ, hfacts⟩ := Option.map_eq_some_iff.mp hrun
  obtain ⟨hstored, hmore⟩ := Prod.mk.inj hfacts
  obtain ⟨σ', hσ', hmore⟩ := Option.map_eq_some_iff.mp hmore
  obtain ⟨hother, hcsv⟩ := Prod.mk.inj hmore
  exact ⟨σ, σ', reaches_of_runLabels hσ, reaches_of_runLabels hσ', hother, hcsv,
    objects_written_once strokes_prefixFree (reaches_of_runLabels hσ) (reaches_of_runLabels hσ')
      hstored⟩

open Sample in
theorem downloads_safe_sample : ∃ σ, FileRuns strokes (fileSystem Sample.administration)
    (attaching ++ scanning) σ ∧
      ∃ cmd object, (200, cmd) ∈ σ.shared.attached ∧ cmd.expenseId = 101 ∧
        cmd.organizationId = 1 ∧
        (∃ row, σ.shared.store.expenses.lookup 101 = some row ∧ row.organizationId = 1) ∧
        σ.shared.objects.lookup (attachmentKey strokes receipt 200) = some object ∧
        object = ⟨cmd.buffer, cmd.contentType⟩ ∧ object.contentType ∈ ALLOWED_CONTENT_TYPES ∧
        object.body.length ≤ MAX_FILE_SIZE_BYTES ∧ (object.body, .clean) ∈ σ.shared.scans := by
  have hrun : (runLabels (fileMachine strokes).next (fileSystem Sample.administration)
      (attaching ++ scanning)).map (fun σ => decide
        ((⟨101, 200, 1⟩, attachmentKey strokes receipt 200) ∈ σ.shared.granted)) = some true := by
    decide +kernel
  obtain ⟨σ, hσ, hgranted⟩ := Option.map_eq_some_iff.mp hrun
  exact ⟨σ, reaches_of_runLabels hσ, downloads_safe strokes_prefixFree (reaches_of_runLabels hσ)
    (of_decide_eq_true hgranted)⟩

open Sample in
/-- Both runs of the job read the file with a mapping that is not saved any more. -/
theorem imports_parse_uploads_sample :
    ∃ σ mapping, FileRuns strokes (fileSystem Sample.administration) importing σ ∧
      mapping.isSome ∧ σ.shared.columnMappings.length = 0 ∧ σ.shared.parsed.length = 2 ∧
      LooksLikeText [0x61] ∧ (∀ m, mapping = some m → validateColumnMappingShape m = []) ∧
      (∃ cmd, (300, cmd, mapping) ∈ σ.shared.uploaded ∧ [0x61] = cmd.buffer ∧
        ∀ m, mapping = some m → ∃ s ∈ σ.shared.saved,
          s.organizationId = cmd.organizationId ∧ s.mapping = m) ∧
      ∀ bytes' mapping', (300, bytes', mapping') ∈ σ.shared.parsed →
        bytes' = [0x61] ∧ mapping' = mapping := by
  have hrun : (runLabels (fileMachine strokes).next (fileSystem Sample.administration)
      importing).map (fun σ => (σ.shared.columnMappings.length,
        σ.shared.parsed.map fun r => (r.1, r.2.1, r.2.2.isSome))) =
        some (0, [(300, [0x61], true), (300, [0x61], true)]) := by decide +kernel
  obtain ⟨σ, hσ, hfacts⟩ := Option.map_eq_some_iff.mp hrun
  obtain ⟨hdeleted, hparsed⟩ := Prod.mk.inj hfacts
  have hmem : (300, [0x61], true) ∈ σ.shared.parsed.map fun r => (r.1, r.2.1, r.2.2.isSome) := by
    rw [hparsed]
    exact List.mem_cons_self
  obtain ⟨⟨_, _, mapping⟩, hmem, heq⟩ := List.mem_map.mp hmem
  obtain ⟨rfl, heq⟩ := Prod.mk.inj heq
  obtain ⟨rfl, hmapping⟩ := Prod.mk.inj heq
  have hlength : σ.shared.parsed.length = 2 := by
    simpa using congrArg List.length hparsed
  exact ⟨σ, mapping, reaches_of_runLabels hσ, hmapping, hdeleted, hlength,
    imports_parse_uploads strokes_prefixFree (reaches_of_runLabels hσ) hmem⟩

end RatelPlatform
