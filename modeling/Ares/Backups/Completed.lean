import Ares.Backups.Service
import Ares.Jobs.Invariant

/-! What is behind a backup that its record calls COMPLETED.  Whatever the clients of the service ask
for, and whatever is cancelled or fails in between, such a record was at the start of the service in its
store, or the executor has found the copy to agree with its manifest; and the executor made a manifest
only after a client had asked for the backup, its plan had been found unchanged and an authorization
for it had been granted. -/

namespace Ares.Backups.Service

open Coop Data Jobs
open Workflows (Outputs Called OutputsIn)

variable {disk : List Doc} {h h' : List (Event kind)}

/-! ### The rules -/

def Held (disk : List Doc) (h : List (Event kind)) (d : Doc) : Prop := d ∈ disk ∨ .put d ∈ h

/-- The record is that of a backup that the executor has found to agree with its manifest. -/
def Verified (h : List (Event kind)) (b : Backup) : Prop :=
  ∃ backup manifest verification, .marked (.verified backup manifest verification) ∈ h ∧
    verification.status = .verified ∧
    b = { backup with
      status := .completed, verificationStatus := .verified, execution := b.execution }

def Borne (disk : List Doc) (h : List (Event kind)) : Doc → Prop
  | .plan p => .plan p ∈ disk ∨ .marked (.built p) ∈ h
  | .record b => b.status = .completed →
      (∃ b₀, .record b₀ ∈ disk ∧ b = { b₀ with execution := b.execution }) ∨ Verified h b
  | .manifest m => .manifest m ∈ disk ∨
      ∃ plan input grant, .marked (.copied plan input grant m) ∈ h
  | .verification v => .verification v ∈ disk ∨
      ∃ backup manifest, .marked (.verified backup manifest v) ∈ h

def Follows (disk : List Doc) (h : List (Event kind)) : Mark → Prop
  | .built _ | .requested _ => True
  | .revalidated plan input => .marked (.requested input) ∈ h ∧ plan.id = input.planId ∧
      Borne disk h (.plan plan)
  | .granted plan input _ => .marked (.revalidated plan input) ∈ h
  | .copying plan input grant => .marked (.granted plan input grant) ∈ h
  | .copied plan input grant _ => .marked (.copying plan input grant) ∈ h
  | .verified backup manifest _ => backup.id = manifest.backupId ∧
      Held disk h (.record backup) ∧ Held disk h (.manifest manifest)

/-- The history bears out the keys of a dictionary. -/
structure EntriesIn (disk : List Doc) (h : List (Event kind)) (e : Entries) : Prop where
  request : ∀ plan input, e.plan = some plan → e.request = some input →
    .marked (.revalidated plan input) ∈ h
  grant : ∀ plan input grant, e.plan = some plan → e.request = some input → e.grant = some grant →
    .marked (.granted plan input grant) ∈ h
  manifest : ∀ m, e.manifest = some m → Borne disk h (.manifest m)
  backup : ∀ b m, e.backup = some b → e.manifest = some m →
    b.id = m.backupId ∧ Held disk h (.record b) ∧ Held disk h (.manifest m)

def ValueIn (disk : List Doc) (h : List (Event kind)) : Value → Prop
  | .createInput input => .marked (.requested input) ∈ h
  | .verifyInput _ => True
  | .entries e => EntriesIn disk h e

theorem Held.suffix {d : Doc} (hd : Held disk h d) (hs : h <:+ h') : Held disk h' d :=
  hd.imp_right fun hmem => hs.subset hmem

theorem Borne.suffix {d : Doc} (hd : Borne disk h d) (hs : h <:+ h') : Borne disk h' d := by
  cases d with
  | plan p => exact hd.imp_right fun hmem => hs.subset hmem
  | record b =>
    intro hb
    refine (hd hb).imp_right ?_
    rintro ⟨backup, manifest, verification, hmem, hverified⟩
    exact ⟨backup, manifest, verification, hs.subset hmem, hverified⟩
  | manifest m =>
    refine hd.imp_right ?_
    rintro ⟨plan, input, grant, hmem⟩
    exact ⟨plan, input, grant, hs.subset hmem⟩
  | verification v =>
    refine hd.imp_right ?_
    rintro ⟨backup, manifest, hmem⟩
    exact ⟨backup, manifest, hs.subset hmem⟩

theorem EntriesIn.suffix {e : Entries} (he : EntriesIn disk h e) (hs : h <:+ h') :
    EntriesIn disk h' e where
  request plan input hp hi := hs.subset (he.request plan input hp hi)
  grant plan input grant hp hi hg := hs.subset (he.grant plan input grant hp hi hg)
  manifest m hm := (he.manifest m hm).suffix hs
  backup b m hb hm := by
    obtain ⟨hid, hrecord, hmanifest⟩ := he.backup b m hb hm
    exact ⟨hid, hrecord.suffix hs, hmanifest.suffix hs⟩

theorem ValueIn.suffix {v : Value} (hv : ValueIn disk h v) (hs : h <:+ h') :
    ValueIn disk h' v := by
  cases v with
  | createInput input => exact hs.subset hv
  | verifyInput => trivial
  | entries e => exact EntriesIn.suffix hv hs

theorem borne_of_mem {d : Doc} (hd : d ∈ disk) : Borne disk [] d := by
  cases d with
  | plan | manifest | verification => exact .inl hd
  | record b => exact fun _ => .inl ⟨b, hd, rfl⟩

def rules (disk : List Doc) : Rules kind where
  base := disk
  mark := Follows disk
  doc := Borne disk
  value := ValueIn disk
  payload h p := .marked (.requested p.input) ∈ h
  doc_base _ := borne_of_mem
  doc_suffix := Borne.suffix
  value_suffix := ValueIn.suffix
  payload_suffix hp hs := hs.subset hp

/-! ### Records -/

theorem Borne.execution {b : Backup} (hb : Borne disk h (.record b)) (execution : BackupExecution) :
    Borne disk h (.record { b with execution }) := by
  intro hstatus
  rcases hb hstatus with ⟨b₀, hmem, heq⟩ | ⟨backup, manifest, verification, hmem, hverified, heq⟩
  · exact .inl ⟨b₀, hmem, by rw [heq]⟩
  · exact .inr ⟨backup, manifest, verification, hmem, hverified, by rw [heq]⟩

theorem borne_open {b : Backup} (hb : b.status ≠ .completed) : Borne disk h (.record b) :=
  fun hstatus => absurd hstatus hb

theorem borne_judged {backup : Backup} {manifest : BackupManifest}
    {verification : BackupVerification} (now : DateTime)
    (hmem : .marked (.verified backup manifest verification) ∈ h) :
    Borne disk h (.record (judged backup verification now)) := by
  intro hstatus
  have hverified : verification.status = .verified := by
    cases hv : verification.status <;> simp [judged, ended, hv, statusOf] at hstatus ⊢
  refine .inr ⟨backup, manifest, verification, hmem, hverified, ?_⟩
  simp [judged, ended, hverified, statusOf]

section Actions

variable {cfg : Config} {who : Handle}

abbrev Keeps (disk : List Doc) (h : List (Event kind)) {α : Type} (p : Task α)
    (Q : α → List (Event kind) → Prop) : Prop :=
  Runs (rules disk) h p Q

/-! ### The store and the outside -/

theorem keeps_mark (m : Mark) (he : ∀ h', h <:+ h' → Follows disk h' m) :
    Keeps disk h (mark (K := kind) m) fun _ h' => .marked m ∈ h' :=
  runs_mark he

theorem keeps_put (doc : Doc) (he : ∀ h', h <:+ h' → Borne disk h' doc) :
    Keeps disk h (put (K := kind) who doc) fun _ h' => Jobs.Known (rules disk) h' doc :=
  runs_put (K := kind) (R := rules disk) who doc he

theorem keeps_fetchSafe (folder : Folder) (id : String) :
    Keeps disk h (fetchSafe cfg who folder id) fun found h' => ∀ d, found = some d →
      Jobs.Known (rules disk) h' d ∧ d.file = (folder, id) := by
  cases hsafe : safeId cfg.lib id with
  | true =>
    simp only [fetchSafe, hsafe]
    exact runs_fetch (K := kind) who (folder, id)
  | false =>
    simp only [fetchSafe, hsafe, Bool.false_eq_true]
    exact runs_ret fun _ _ d hd => by cases hd

theorem keeps_getPlan (planId : String) :
    Keeps disk h (getPlan cfg who planId) fun found h' => ∀ p, found = some p →
      Jobs.Known (rules disk) h' (.plan p) ∧ p.id = planId := by
  refine (keeps_fetchSafe .plans planId).bind fun found h1 _ hfound =>
    runs_ret fun h2 hs p hp => ?_
  obtain ⟨d, rfl, hd⟩ := Option.bind_eq_some_iff.mp hp
  obtain ⟨hknown, hfile⟩ := hfound d rfl
  cases d with
  | plan p' =>
    obtain rfl := Option.some.inj hd
    exact ⟨hknown.suffix hs, (Prod.mk.inj hfile).2⟩
  | record | manifest | verification => cases hd

theorem keeps_getBackup (backupId : String) :
    Keeps disk h (getBackup cfg who backupId) fun found h' => ∀ b, found = some b →
      Jobs.Known (rules disk) h' (.record b) ∧ b.id = backupId := by
  refine (keeps_fetchSafe .records backupId).bind fun found h1 _ hfound =>
    runs_ret fun h2 hs b hb => ?_
  obtain ⟨d, rfl, hd⟩ := Option.bind_eq_some_iff.mp hb
  obtain ⟨hknown, hfile⟩ := hfound d rfl
  cases d with
  | record b' =>
    obtain rfl := Option.some.inj hd
    exact ⟨hknown.suffix hs, (Prod.mk.inj hfile).2⟩
  | plan | manifest | verification => cases hd

theorem keeps_getManifest (backupId : String) :
    Keeps disk h (getManifest cfg who backupId) fun found h' => ∀ m, found = some m →
      Jobs.Known (rules disk) h' (.manifest m) ∧ m.backupId = backupId := by
  refine (keeps_fetchSafe .manifests backupId).bind fun found h1 _ hfound =>
    runs_ret fun h2 hs m hm => ?_
  obtain ⟨d, rfl, hd⟩ := Option.bind_eq_some_iff.mp hm
  obtain ⟨hknown, hfile⟩ := hfound d rfl
  cases d with
  | manifest m' =>
    obtain rfl := Option.some.inj hd
    exact ⟨hknown.suffix hs, (Prod.mk.inj hfile).2⟩
  | plan | record | verification => cases hd

theorem keeps_ask (c : Call) : Keeps disk h (ask who c) fun _ _ => True := runs_await who _

theorem keeps_entry {α : Type} (value : Value) (key : Entries → Option α) :
    Keeps disk h (entry value key) fun a _ => ∃ e, value = .entries e ∧ key e = some a := by
  refine runs_ofOption.mono fun a _ _ ha => ?_
  cases value with
  | entries e => exact ⟨e, rfl, ha⟩
  | createInput | verifyInput => cases ha

/-! ### The actions -/

variable {inputs : Value}

theorem keeps_validateBackupPlan (hv : ValueIn disk h inputs) :
    Keeps disk h (validateBackupPlan cfg who inputs) fun output h' => ValueIn disk h' output := by
  refine runs_ofOption.bind fun input h1 hs1 hinput => ?_
  obtain rfl : inputs = .createInput input := by
    cases inputs with
    | createInput i => exact congrArg _ (Option.some.inj hinput)
    | verifyInput | entries => cases hinput
  have hrequested : .marked (.requested input) ∈ h1 := hs1.subset hv
  refine (keeps_getPlan input.planId).bind fun found h2 hs2 hfound => ?_
  refine runs_ofOption.bind fun plan h3 hs3 hplan => ?_
  obtain ⟨hknown, hid⟩ := hfound plan hplan
  refine (keeps_ask (.revalidatePlan plan)).bind fun valid h4 hs4 _ => ?_
  refine (RunsOr.handle (runs_ofReturned valid) fun e _ _ => runs_toActionError e).bind
    fun _ h5 hs5 _ => ?_
  have hs : h2 <:+ h5 := hs3.trans (hs4.trans hs5)
  refine (keeps_mark (.revalidated plan input) fun h' hs' =>
    ⟨(hs2.trans (hs.trans hs')).subset hrequested, hid,
      Borne.suffix hknown.borne (hs.trans hs')⟩).bind fun _ h6 hs6 hmark => ?_
  refine (keeps_getBackup plan.backupId).bind fun found h7 hs7 _ => ?_
  refine runs_ofOption.bind fun backup h8 hs8 _ => ?_
  refine (keeps_put _ fun h' _ => borne_open fun heq => by cases heq).bind fun _ h9 hs9 _ => ?_
  refine (runs_pause who).bind fun _ h10 hs10 _ => runs_ret fun h11 hs11 => ?_
  have hmark' : .marked (.revalidated plan input) ∈ h11 :=
    (hs7.trans (hs8.trans (hs9.trans (hs10.trans hs11)))).subset hmark
  refine ⟨fun p i hp hi => ?_, fun p i g _ _ hg => (by cases hg), fun m hm => (by cases hm),
    fun b m hb => (by cases hb)⟩
  obtain rfl := Option.some.inj hp
  obtain rfl := Option.some.inj hi
  exact hmark'

theorem keeps_onChallenge (backupId challengeId : String) :
    Keeps disk h (onChallenge cfg who backupId challengeId) fun _ _ => True := by
  refine (keeps_getBackup backupId).bind fun found h1 _ hfound => ?_
  refine (runs_whenSome fun b hb => ?_).bind fun _ _ _ _ => runs_pause who
  refine (keeps_put _ fun h' hs => ?_).mono fun _ _ _ _ => trivial
  have hborne : Borne disk h1 (.record b) := (hfound b hb).1.borne
  exact (hborne.execution _).suffix hs

theorem keeps_requestAuthorization (plan : BackupPlan) (sessionId : String) :
    Keeps disk h (requestAuthorization cfg who plan sessionId) fun _ _ => True := by
  refine (keeps_ask .messages).bind fun n h1 _ _ => ?_
  refine (runs_attend (fun h' _ => keeps_ask _)
    (fun id h' _ => keeps_onChallenge plan.backupId id) n).bind fun _ h2 _ _ => ?_
  exact (keeps_ask _).bind fun granted h3 _ _ => runs_ofReturned granted

theorem keeps_requestBackupAuthorization (hv : ValueIn disk h inputs) :
    Keeps disk h (requestBackupAuthorization cfg who inputs) fun output h' =>
      ValueIn disk h' output := by
  refine (keeps_entry inputs (·.plan)).bind fun plan h1 hs1 hplan => ?_
  obtain ⟨e, rfl, hplan⟩ := hplan
  refine runs_ofOption.bind fun input h2 hs2 (hinput : e.request = some input) => ?_
  have hrevalidated := EntriesIn.request hv plan input hplan hinput
  refine (RunsOr.handle (keeps_requestAuthorization plan input.sessionId)
    fun e _ _ => runs_toActionError e).bind fun grant h3 hs3 _ => ?_
  have hs : h <:+ h3 := hs1.trans (hs2.trans hs3)
  refine (keeps_mark (.granted plan input grant) fun h' hs' =>
    (hs.trans hs').subset hrevalidated).bind fun _ h4 hs4 hmark => runs_ret fun h5 hs5 => ?_
  refine ⟨fun p i hp hi => ?_, fun p i g hp hi hg => ?_, fun m hm => (by cases hm),
    fun b m hb => (by cases hb)⟩
  · obtain rfl := Option.some.inj hp
    obtain rfl := Option.some.inj hi
    exact (hs.trans (hs4.trans hs5)).subset hrevalidated
  · obtain rfl := Option.some.inj hp
    obtain rfl := Option.some.inj hi
    obtain rfl := Option.some.inj hg
    exact hs5.subset hmark

theorem keeps_onCopyMessage (backupId : String) (message : CopyMessage) :
    Keeps disk h (onCopyMessage cfg who backupId message) fun _ _ => True := by
  cases message with
  | entry => exact runs_pause who
  | progress =>
    refine (keeps_getBackup backupId).bind fun found h1 _ hfound => ?_
    refine (runs_whenSome fun b hb => ?_).bind fun _ _ _ _ => runs_pause who
    refine (keeps_put _ fun h' hs => ?_).mono fun _ _ _ _ => trivial
    have hborne : Borne disk h1 (.record b) := (hfound b hb).1.borne
    exact hborne.suffix hs

theorem keeps_markEnded {status : BackupStatus} (hstatus : status ≠ .completed)
    (backupId errorCode : String) :
    Keeps disk h (markEnded cfg who backupId status errorCode) fun _ _ => True := by
  refine (keeps_getBackup backupId).bind fun found h1 _ _ => runs_whenSome fun b _ => ?_
  refine (runs_reading _).bind fun now h2 _ _ => ?_
  exact (keeps_put _ fun h' _ => borne_open hstatus).mono fun _ _ _ _ => trivial

theorem keeps_executorCreate (plan : BackupPlan) (grant : AuthorizationGrant) :
    Keeps disk h (executorCreate cfg who plan grant) fun _ _ => True := by
  refine (keeps_ask .messages).bind fun n h1 _ _ => ?_
  refine (runs_attend (fun h' _ => keeps_ask _)
    (fun message h' _ => keeps_onCopyMessage plan.backupId message) n).bind
      fun _ h2 _ _ => ?_
  exact (keeps_ask _).bind fun created h3 _ _ => runs_ofReturned created

theorem keeps_onCopyError {α : Type} {Q : α → List (Event kind) → Prop} (backupId : String)
    (e : Jobs.Error) : Keeps disk h (onCopyError cfg who backupId e) Q := by
  have hcancelled : Keeps disk h (onCopyError cfg who backupId .cancelled) Q := by
    refine (keeps_markEnded (by decide) backupId _).bind fun _ _ _ _ => ?_
    exact (runs_pause who).bind fun _ _ _ _ => runs_raise trivial _
  cases e with
  | executor code =>
    refine (keeps_markEnded (by decide) backupId code).bind fun _ _ _ _ => ?_
    exact (runs_pause who).bind fun _ _ _ _ => runs_raise trivial _
  | service code => exact runs_raise trivial _
  | exc e =>
    cases e with
    | cancelledError => exact hcancelled
    | _ => exact runs_raise trivial _

theorem keeps_createBackupFiles (context : ActionContext) (hv : ValueIn disk h inputs) :
    Keeps disk h (createBackupFiles cfg who context inputs) fun output h' =>
      ValueIn disk h' output := by
  refine (keeps_entry inputs (·.plan)).bind fun plan h1 hs1 hplan => ?_
  obtain ⟨e, rfl, hplan⟩ := hplan
  refine runs_ofOption.bind fun input h2 hs2 (hinput : e.request = some input) => ?_
  refine runs_ofOption.bind fun grant h3 hs3 (hgrant : e.grant = some grant) => ?_
  have hgranted := EntriesIn.grant hv plan input grant hplan hinput hgrant
  refine (keeps_getBackup plan.backupId).bind fun found h4 hs4 _ => ?_
  refine runs_ofOption.bind fun backup h5 hs5 _ => ?_
  refine (runs_reading _).bind fun started h6 hs6 _ => ?_
  refine (keeps_put _ fun h' _ => borne_open fun heq => by cases heq).bind fun _ h7 hs7 _ => ?_
  refine (runs_pause who).bind fun _ h8 hs8 _ => ?_
  have hs : h <:+ h8 :=
    hs1.trans (hs2.trans (hs3.trans (hs4.trans (hs5.trans (hs6.trans (hs7.trans hs8))))))
  refine (keeps_mark (.copying plan input grant) fun h' hs' =>
    (hs.trans hs').subset hgranted).bind fun _ h9 hs9 hcopying => ?_
  refine (RunsOr.handle (Q := fun _ _ => True) (keeps_executorCreate plan grant)
    fun e _ _ => keeps_onCopyError plan.backupId e).bind fun manifest h10 hs10 _ => ?_
  refine (keeps_mark (.copied plan input grant manifest) fun h' hs' =>
    (hs10.trans hs').subset hcopying).bind fun _ h11 hs11 hmark => runs_ret fun h12 hs12 => ?_
  refine ⟨fun p i hp => (by cases hp), fun p i g hp => (by cases hp), fun m hm => ?_,
    fun b m hb => (by cases hb)⟩
  obtain rfl := Option.some.inj hm
  exact .inr ⟨plan, input, grant, hs12.subset hmark⟩

theorem keeps_persistBackupManifest (hv : ValueIn disk h inputs) :
    Keeps disk h (persistBackupManifest cfg who inputs) fun output h' => ValueIn disk h' output := by
  refine (keeps_entry inputs (·.manifest)).bind fun manifest h1 hs1 hmanifest => ?_
  obtain ⟨e, rfl, hmanifest⟩ := hmanifest
  refine (keeps_entry (.entries e) (·.request)).bind fun input h2 hs2 _ => ?_
  have hborne := EntriesIn.manifest hv manifest hmanifest
  refine (keeps_put (.manifest manifest) fun h' hs' =>
    Borne.suffix hborne (hs1.trans (hs2.trans hs'))).bind fun _ h3 hs3 hput => ?_
  refine (keeps_getBackup manifest.backupId).bind fun found h4 hs4 hfound => ?_
  refine runs_ofOption.bind fun backup h5 hs5 hbackup => ?_
  obtain ⟨-, hid⟩ := hfound backup hbackup
  refine (keeps_put (.record (manifested backup manifest)) fun h' _ =>
    borne_open fun heq => by cases heq).bind fun _ h6 hs6 hrecord => runs_ret fun h7 hs7 => ?_
  have hstored := hput.suffix (hs4.trans (hs5.trans (hs6.trans hs7)))
  refine ⟨fun p i hp => (by cases hp), fun p i g hp => (by cases hp), fun m hm => ?_,
    fun b m hb hm => ?_⟩
  · obtain rfl := Option.some.inj hm
    exact hstored.borne
  · obtain rfl := Option.some.inj hb
    obtain rfl := Option.some.inj hm
    exact ⟨hid, (hrecord.suffix hs7).held, hstored.held⟩

theorem keeps_verifyBackupAction (hv : ValueIn disk h inputs) :
    Keeps disk h (verifyBackupAction who inputs) fun output h' => ValueIn disk h' output := by
  refine (keeps_entry inputs (·.backup)).bind fun backup h1 hs1 hbackup => ?_
  obtain ⟨e, rfl, hbackup⟩ := hbackup
  refine runs_ofOption.bind fun manifest h2 hs2 (hmanifest : e.manifest = some manifest) => ?_
  obtain ⟨hid, hrecord, hstored⟩ := EntriesIn.backup hv backup manifest hbackup hmanifest
  refine (runs_pause who).bind fun _ h3 hs3 _ => ?_
  refine (keeps_ask _).bind fun answer h4 hs4 _ => ?_
  refine (RunsOr.handle (Q := fun _ _ => True) (runs_ofReturned answer) fun e _ _ =>
    runs_toActionError e).bind fun verification h5 hs5 _ => ?_
  have hs : h <:+ h5 := hs1.trans (hs2.trans (hs3.trans (hs4.trans hs5)))
  refine (keeps_mark (.verified backup manifest verification) fun h' hs' =>
    ⟨hid, hrecord.suffix (hs.trans hs'), hstored.suffix (hs.trans hs')⟩).bind
      fun _ h6 hs6 hmark => ?_
  refine (keeps_put (.verification verification) fun h' hs' =>
    .inr ⟨backup, manifest, hs'.subset hmark⟩).bind fun _ h7 hs7 _ => ?_
  refine (runs_reading _).bind fun now h8 hs8 _ => ?_
  refine (keeps_put (.record (judged backup verification now))
    fun h' hs' => borne_judged now ((hs7.trans (hs8.trans hs')).subset hmark)).bind
      fun _ h9 hs9 hjudged => ?_
  refine (runs_pause who).bind fun _ h10 hs10 _ => ?_
  have hlast : Keeps disk h10 (if (judged backup verification now).status = .completed then pause who
      else pure ()) fun _ _ => True := by
    split
    · exact runs_pause who
    · exact runs_ret fun _ _ => trivial
  refine hlast.bind fun _ h11 hs11 _ => runs_ret fun h12 hs12 => ?_
  have hend : h9 <:+ h12 := hs10.trans (hs11.trans hs12)
  have hafter : h <:+ h12 := hs.trans (hs6.trans (hs7.trans (hs8.trans (hs9.trans hend))))
  refine ⟨fun p i hp => (by cases hp), fun p i g hp => (by cases hp), fun m hm => ?_,
    fun b m hb hm => ?_⟩
  · obtain rfl := Option.some.inj hm
    exact (EntriesIn.manifest hv manifest hmanifest).suffix hafter
  · obtain rfl := Option.some.inj hb
    obtain rfl := Option.some.inj hm
    exact ⟨hid, (hjudged.suffix hend).held, hstored.suffix hafter⟩

theorem keeps_projectBackupGraph (hv : ValueIn disk h inputs) :
    Keeps disk h (projectBackupGraph who inputs) fun output h' => ValueIn disk h' output := by
  refine (keeps_entry inputs (·.backup)).bind fun _ h1 hs1 _ => ?_
  refine (keeps_entry inputs (·.manifest)).bind fun _ h2 hs2 _ => ?_
  refine (keeps_entry inputs (·.verification)).bind fun _ h3 hs3 _ => ?_
  refine (keeps_ask .applyGraph).bind fun applied h4 hs4 _ => ?_
  refine (runs_ofCalled applied).bind fun summary h5 hs5 _ => ?_
  refine (runs_pause who).bind fun _ h6 hs6 _ => ?_
  refine (keeps_entry inputs some).bind fun e h7 hs7 he => runs_ret fun h8 hs8 => ?_
  obtain ⟨e', rfl, heq⟩ := he
  obtain rfl := Option.some.inj heq
  have hafter : h <:+ h8 :=
    hs1.trans (hs2.trans (hs3.trans (hs4.trans (hs5.trans (hs6.trans (hs7.trans hs8))))))
  have hin := EntriesIn.suffix hv hafter
  exact ⟨hin.request, hin.grant, hin.manifest, hin.backup⟩

theorem keeps_loadBackupForVerification :
    Keeps disk h (loadBackupForVerification cfg who inputs) fun output h' =>
      ValueIn disk h' output := by
  refine runs_ofOption.bind fun input h1 _ _ => ?_
  refine (keeps_getBackup input.backupId).bind fun foundBackup h2 _ hbackup => ?_
  refine (keeps_getManifest input.backupId).bind fun foundManifest h3 hs3 hmanifest => ?_
  refine runs_ofOption.bind fun backup h4 hs4 hb => ?_
  refine runs_ofOption.bind fun manifest h5 hs5 hm => runs_ret fun h6 hs6 => ?_
  obtain ⟨hrecord, hid⟩ := hbackup backup hb
  obtain ⟨hstored, hid'⟩ := hmanifest manifest hm
  have hs : h3 <:+ h6 := hs4.trans (hs5.trans hs6)
  refine ⟨fun p i hp => (by cases hp), fun p i g hp => (by cases hp), fun m hm => ?_,
    fun b m hb hm => ?_⟩
  · obtain rfl := Option.some.inj hm
    exact (hstored.suffix hs).borne
  · obtain rfl := Option.some.inj hb
    obtain rfl := Option.some.inj hm
    exact ⟨hid.trans hid'.symm, (hrecord.suffix (hs3.trans hs)).held, (hstored.suffix hs).held⟩

theorem keeps_action (n : Nat) (context : ActionContext) (hv : ValueIn disk h inputs) :
    Keeps disk h (action cfg n context inputs) fun output h' => ValueIn disk h' output := by
  rw [action]
  split
  · exact keeps_validateBackupPlan hv
  split
  · exact keeps_requestBackupAuthorization hv
  split
  · exact keeps_createBackupFiles context hv
  split
  · exact keeps_persistBackupManifest hv
  split
  · exact keeps_verifyBackupAction hv
  split
  · exact keeps_projectBackupGraph hv
  split
  · exact keeps_loadBackupForVerification
  · exact runs_raise trivial _

/-! ### The workflows -/

theorem callsIn_createFlow {input : BackupCreateInput} (hrequested : .marked (.requested input) ∈ h) :
    CallsIn (rules disk) h (createFlow input).toCalls := by
  intro h' id state value hs hstate heq
  simp only [createFlow, createInputs] at heq
  split at heq
  · obtain rfl := Called.returned.inj heq
    exact hs.subset hrequested
  · split_ifs at heq <;> exact stateOf_in hstate heq

theorem callsIn_verifyFlow (input : BackupVerifyInput) :
    CallsIn (rules disk) h (verifyFlow input).toCalls := by
  intro h' id state value hs hstate heq
  simp only [verifyFlow, verifyInputs] at heq
  split at heq
  · obtain rfl := Called.returned.inj heq
    trivial
  · split_ifs at heq <;> exact stateOf_in hstate heq

/-! ### The service -/

theorem keeps_markTerminalFailure (backupId code : String) (cancelled : Bool) :
    Keeps disk h (markTerminalFailure cfg who backupId code cancelled) fun _ _ => True := by
  refine (keeps_getBackup backupId).bind fun found h1 _ _ => runs_whenSome fun b _ => ?_
  split
  · exact runs_ret fun _ _ => trivial
  · refine (runs_reading _).bind fun now h2 _ _ => ?_
    refine (keeps_put _ fun h' _ => borne_open ?_).mono fun _ _ _ _ => trivial
    cases cancelled <;> exact fun heq => by cases heq

theorem keeps_tryCreate (task : Nat) {p : Payload}
    (hrequested : .marked (.requested p.input) ∈ h) :
    Keeps disk h (tryCreate cfg task who p) fun _ _ => True := by
  have hexecute : Keeps disk h (executeCapability cfg.engine task who
      (refused cfg "backup.create" p.input.valid) (createFlow p.input) validCreateResult
      (some p.workflowId) p.uuid) fun _ _ => True :=
    runs_executeCapability (K := kind) (R := rules disk) cfg.engine task who _
      (fun _ => callsIn_createFlow hrequested) _ _ _
  refine hexecute.bind fun execution _ _ _ => ?_
  split
  · exact runs_ret fun _ _ => trivial
  · exact keeps_markTerminalFailure _ _ _

theorem keeps_onCreateError (backupId : String) (e : Jobs.Error) :
    Keeps disk h (onCreateError cfg who backupId e) fun _ _ => True := by
  rw [onCreateError.eq_def]
  split <;> exact keeps_markTerminalFailure _ _ _

theorem keeps_runCreate (task n : Nat) {p : Payload}
    (hrequested : .marked (.requested p.input) ∈ h) :
    Keeps disk h (runCreate cfg task n p) fun _ _ => True := by
  refine Runs.andFinally (RunsOr.handle (keeps_tryCreate task hrequested) fun e _ _ =>
    keeps_onCreateError p.backupId e) fun _ _ => ?_
  refine (runs_await (.job n) .thread).bind fun _ _ _ _ => ?_
  exact runs_aside (fun _ => rfl) (fun _ => rfl) (fun _ => rfl) (fun _ => rfl) fun _ => rfl

theorem keeps_plan (request : BackupPlanRequest) :
    Keeps disk h (plan who request) fun _ _ => True := by
  refine (keeps_ask _).bind fun answer h1 _ _ => ?_
  refine (RunsOr.handle (Q := fun _ _ => True) (runs_ofReturned answer) fun e _ _ => ?_).bind
    fun plan h2 _ _ => ?_
  · exact runs_toServiceError e
  refine (keeps_mark (.built plan) fun _ _ => trivial).bind
    fun _ h3 hs3 hmark => ?_
  refine (keeps_put (.plan plan) fun h' hs =>
    Or.inr (hs.subset hmark)).bind fun _ h4 _ _ => ?_
  refine (runs_pause who).bind fun _ h5 _ _ => ?_
  exact (Jobs.runs_attempt who).bind fun _ _ _ _ => runs_ret fun _ _ => trivial

theorem keeps_create (request : BackupCreateRequest)
    (sessionId createdBy workflowId executionId uuid : String) :
    Keeps disk h (create cfg who request sessionId createdBy workflowId executionId uuid)
      fun _ _ => True := by
  refine Jobs.runs_require.bind fun _ h1 _ _ => ?_
  refine (keeps_mark (.requested ⟨request.planId, sessionId, createdBy⟩)
    fun _ _ => trivial).bind fun _ h2 _ hmark => ?_
  refine (keeps_getPlan request.planId).bind fun found h3 hs3 hfound => ?_
  refine runs_ofOption.bind fun plan h4 hs4 hplan => ?_
  obtain ⟨-, hid⟩ := hfound plan hplan
  refine (keeps_getBackup plan.backupId).bind fun existing h5 hs5 _ => ?_
  refine Jobs.runs_require.bind fun _ h6 hs6 _ => ?_
  refine (runs_reading _).bind fun now h7 hs7 _ => ?_
  refine (keeps_put _ fun h' _ => borne_open fun heq => by cases heq).bind fun _ h8 hs8 _ => ?_
  refine (runs_reading _).bind fun job h9 hs9 _ => ?_
  have hs : h2 <:+ h9 :=
    hs3.trans (hs4.trans (hs5.trans (hs6.trans (hs7.trans (hs8.trans hs9)))))
  refine (runs_modify (P := fun _ => True) fun s hi hs' => ⟨hi.create ?_, List.suffix_refl _,
    trivial⟩).bind fun _ h10 _ _ => ?_
  · rw [hid]
    exact (hs.trans hs').subset hmark
  refine (runs_await who .thread).bind fun _ h11 _ _ => ?_
  have htable : Keeps disk h11 (Proc.modify (State.table plan.backupId job)) fun _ _ => True :=
    runs_aside (fun _ => rfl) (fun _ => rfl) (fun _ => rfl) (fun _ => rfl) fun _ => rfl
  exact htable.bind fun _ _ _ _ => runs_ret fun _ _ => trivial

theorem keeps_verify (task : Nat) (backupId sessionId uuid : String) :
    Keeps disk h (verify cfg task who backupId sessionId uuid) fun _ _ => True := by
  have hexecute : Keeps disk h (executeCapability cfg.engine task who
      (refused cfg "backup.verify" (BackupVerifyInput.valid ⟨backupId, sessionId⟩))
      (verifyFlow ⟨backupId, sessionId⟩) validVerifyResult none uuid) fun _ _ => True :=
    runs_executeCapability (K := kind) (R := rules disk) cfg.engine task who _
      (fun _ => callsIn_verifyFlow _) _ _ _
  refine hexecute.bind fun execution _ _ _ => ?_
  exact Jobs.runs_require.bind fun _ _ _ _ => runs_ret fun _ _ => trivial

theorem keeps_cancelTask (backupId : String) :
    Keeps disk h (cancelTask who backupId) fun _ _ => True := by
  refine (runs_runningTask who backupId).bind fun found h1 _ _ => ?_
  cases found with
  | some n => exact (runs_cancel _).bind fun _ _ _ _ => runs_ret fun _ _ => trivial
  | none => exact runs_ret fun _ _ => trivial

theorem keeps_cancel (task : Nat) (backupId : String) :
    Keeps disk h (cancel cfg task who backupId) fun _ _ => True := by
  refine (keeps_getBackup backupId).bind fun found h1 _ _ => ?_
  refine runs_ofOption.bind fun backup h2 _ _ => ?_
  split
  · exact runs_ret fun _ _ => trivial
  have hexecution : Keeps disk h2 (cancelExecution task who backup.execution.workflowExecutionId)
      fun _ _ => True := by
    cases backup.execution.workflowExecutionId with
    | some id => exact runs_cancelWorkflow task who id
    | none => exact runs_ret fun _ _ => trivial
  refine hexecution.bind fun stopped h3 _ _ => ?_
  have hrest : Keeps disk h3 (orElse stopped (cancelTask who backupId)) fun _ _ => True := by
    cases stopped with
    | true => exact runs_ret fun _ _ => trivial
    | false => exact keeps_cancelTask backupId
  refine hrest.bind fun cancelled h4 _ _ => ?_
  refine Jobs.runs_require.bind fun _ h5 _ _ => ?_
  refine (runs_pause who).bind fun _ h6 _ _ => ?_
  exact (keeps_getBackup backupId).bind fun later _ _ _ => runs_ret fun _ _ => trivial

theorem keeps_serve (task : Nat) (request : Request) :
    Keeps disk h (serve cfg task request) fun _ _ => True := by
  have hdone : ∀ {α : Type} {p : Task α} {h : List (Event kind)} {Q} (f : α → Reply),
      Keeps disk h p Q → Keeps disk h (p.bind fun a => pure (f a)) fun _ _ => True := fun f hp =>
    hp.bind fun _ _ _ _ => runs_ret fun _ _ => trivial
  cases request with
  | plan request => exact hdone .plan (keeps_plan request)
  | create request sessionId createdBy workflowId executionId uuid =>
    exact hdone .accepted (keeps_create request _ _ _ _ _)
  | get backupId => exact hdone .backup (keeps_getBackup backupId)
  | manifest backupId => exact hdone .manifest (keeps_getManifest backupId)
  | verification backupId =>
    refine hdone .verification (Q := fun _ _ => True) ?_
    exact (keeps_fetchSafe .verifications backupId).bind fun _ _ _ _ =>
      runs_ret fun _ _ => trivial
  | verify backupId sessionId uuid => exact hdone .verified (keeps_verify task _ _ _)
  | cancel backupId => exact hdone .cancelled (keeps_cancel task backupId)
  | shutdown => exact hdone (fun _ => .done) (runs_shutdown _)

theorem service_sound (disk : List Doc) : Sound (rules disk) (service cfg) where
  serve task request _ := keeps_serve task request
  job task n _ _ hrequested := keeps_runCreate task n hrequested
  action n context _ _ hv := keeps_action n context hv

end Actions

/-! ### Every run -/

/-- A client has asked for the backup, the plan was then found as it was, and an authorization was
granted after that. -/
structure Authorized (disk : List Doc) (h : List (Event kind)) (plan : BackupPlan)
    (input : BackupCreateInput) (grant : AuthorizationGrant) : Prop where
  order : [.marked (.granted plan input grant), .marked (.revalidated plan input),
    .marked (.requested input)].Sublist h
  id : plan.id = input.planId
  plan : .plan plan ∈ disk ∨ .marked (.built plan) ∈ h

theorem authorized_of_granted {plan : BackupPlan} {input : BackupCreateInput}
    {grant : AuthorizationGrant} (hh : Always (rules disk).Lawful h)
    (hgranted : .marked (.granted plan input grant) ∈ h) :
    Authorized disk h plan input grant := by
  obtain ⟨past, hs, hrevalidated, hpast⟩ := hh.exists_past hgranted
  obtain ⟨past', hs', ⟨hrequested, hid, hplan⟩, -⟩ := hpast.exists_past hrevalidated
  have hrequests : [.marked (.requested input)].Sublist past' :=
    List.singleton_sublist.mpr hrequested
  refine ⟨sublist_of_suffix (sublist_of_suffix hrequests hs') hs, hid, ?_⟩
  have hsub := ((List.suffix_cons _ _).trans hs').trans ((List.suffix_cons _ _).trans hs)
  exact hplan.imp_right fun hmem => hsub.subset hmem

theorem Authorized.suffix {plan : BackupPlan} {input : BackupCreateInput}
    {grant : AuthorizationGrant} (ha : Authorized disk h plan input grant) (hs : h <:+ h') :
    Authorized disk h' plan input grant :=
  ⟨ha.order.trans hs.sublist, ha.id, ha.plan.imp_right fun hmem => hs.subset hmem⟩

/-- In every run, whatever the clients ask for and whatever is cancelled or fails: where the executor
is told to copy, a client has asked for that backup, the plan was then found as it was, and the
executor has granted the authorization after that. -/
theorem copies_authorized (cfg : Config) (now : DateTime) (disk : List Doc)
    (p : Tasks kind) (reach : (system (service cfg)).Reachable (State.start now disk) p) (plan : BackupPlan)
    (input : BackupCreateInput) (grant : AuthorizationGrant) (past : List (Event kind))
    (hs : (.marked (.copying plan input grant) :: past) <:+ p.state.history) :
    Authorized disk past plan input grant := by
  have hh := ((service_sound disk).always reach).suffix hs
  exact authorized_of_granted hh.2 hh.1

/-! ### A sample -/

def samplePlan : BackupPlan where
  id := "plan-0001"
  backupId := "backup-0001"
  source := ⟨"/src", "8:1", none, "/src", "ext4", 0, 0, 0⟩
  destination := ⟨"/dst", "/dst/ARES/backup-0001", "8:17", none, "/dst", "ext4", .localFilesystem,
    1000000000⟩
  policy := ⟨builtinExcludedNames⟩
  includedFileCount := 0
  includedDirectoryCount := 0
  requiredBytes := 0
  exclusions := []
  estimatedDurationSeconds := none
  createdAt := 0
  expiresAt := 900000001
  fingerprintSha256 := "sha"

def sampleManifest : BackupManifest where
  backupId := "backup-0001"
  source := samplePlan.source
  entries := []
  fileCount := 0
  directoryCount := 0
  totalSizeBytes := 0
  createdAt := 0
  manifestChecksumSha256 := "sha"

def sampleVerification : BackupVerification :=
  ⟨"verification-1", "backup-0001", 0, .verified, 0, 0, 0, 0, true, [], [], [], [], "verified"⟩

def sampleCall : (c : Call) → c.Answer
  | .buildPlan _ _ => .value samplePlan
  | .revalidatePlan _ => .value ()
  | .messages => 1
  | .challenge _ => "challenge-1"
  | .requestAuthorization _ _ =>
    .value ⟨"grant-1", "challenge-1", "plan-0001", "session-1", "sha", 900000001⟩
  | .copyMessage _ => .progress
  | .create _ _ => .value sampleManifest
  | .verify _ _ => .value sampleVerification
  | .applyGraph => .returned ⟨1, 1, 1⟩

def sampleAnswer : (o : Jobs.Op kind) → Jobs.Res o
  | ⟨_, .pause⟩ => .value (.returned ())
  | ⟨_, .thread⟩ | ⟨_, .join _⟩ | ⟨_, .gather _⟩ => .value ()
  | ⟨_, .read⟩ | ⟨_, .write _⟩ => .value true
  | ⟨_, .action _⟩ => .value .finished
  | ⟨_, .call c⟩ => .value (sampleCall c)

def sampleConfig : Config where
  lib := ⟨fun _ _ => none, fun _ => none, Char.isAlphanum⟩
  engine := ⟨fun _ => .returned ⟨"sha", 1, []⟩, fun _ => true⟩
  refuses _ := none

def sampleCreate : Request :=
  .create ⟨"plan-0001", true⟩ "session-1" "local" "workflow-1" "execution-1" "uuid"

/-- A client asks for a backup by a plan that the store holds, and nothing fails. -/
def sampleRun : Tasks kind :=
  drive (service sampleConfig) sampleAnswer 100
    ((system (service sampleConfig)).next (System.initial (State.start 5 [.plan samplePlan]))
      (.start (.call sampleCreate)))

theorem sampleRun_reachable :
    (system (service sampleConfig)).Reachable (State.start 5 [.plan samplePlan]) sampleRun :=
  reachable_drive _ _ _ ⟨[.start (.call sampleCreate)], .cons trivial (.nil _)⟩

def Event.copies : Event kind → Bool
  | .marked (.copying _ _ _) => true
  | _ => false

theorem copies_authorized_run : ∃ plan input grant past,
    (.marked (.copying plan input grant) :: past) <:+ sampleRun.state.history ∧
    Authorized [.plan samplePlan] past plan input grant := by
  have hany : sampleRun.state.history.any Event.copies = true := by decide +kernel
  obtain ⟨e, he, hcopies⟩ := List.any_eq_true.mp hany
  obtain ⟨past, hs⟩ := exists_suffix_of_mem he
  cases e with
  | put => cases hcopies
  | marked m =>
    cases m with
    | copying plan input grant =>
      exact ⟨plan, input, grant, past, hs, copies_authorized sampleConfig 5 [.plan samplePlan]
        sampleRun sampleRun_reachable plan input grant past hs⟩
    | _ => cases hcopies

/-- The executor was told to copy, and made the manifest. -/
structure Made (disk : List Doc) (h : List (Event kind)) (plan : BackupPlan)
    (input : BackupCreateInput) (grant : AuthorizationGrant) (manifest : BackupManifest) : Prop where
  order : [.put (.manifest manifest), .marked (.copied plan input grant manifest),
    .marked (.copying plan input grant), .marked (.granted plan input grant),
    .marked (.revalidated plan input), .marked (.requested input)].Sublist h
  authorized : Authorized disk h plan input grant

theorem made_of_put {manifest : BackupManifest} (hh : Always (rules disk).Lawful h)
    (hput : .put (.manifest manifest) ∈ h) (hnew : .manifest manifest ∉ disk) :
    ∃ plan input grant, Made disk h plan input grant manifest := by
  obtain ⟨past, hs, hborne, hpast⟩ := hh.exists_past hput
  obtain ⟨plan, input, grant, hcopied⟩ :=
    (show Borne disk past (.manifest manifest) from hborne).resolve_left hnew
  obtain ⟨past', hs', hcopying, hpast'⟩ := hpast.exists_past hcopied
  obtain ⟨past'', hs'', hgranted, hpast''⟩ := hpast'.exists_past hcopying
  have ha := authorized_of_granted hpast'' hgranted
  refine ⟨plan, input, grant, ?_, ?_⟩
  · exact sublist_of_suffix (sublist_of_suffix (sublist_of_suffix ha.order hs'') hs') hs
  · exact ha.suffix (((List.suffix_cons _ _).trans hs'').trans
      (((List.suffix_cons _ _).trans hs').trans ((List.suffix_cons _ _).trans hs)))

/-- In every run: a record that calls its backup completed is, but for its `execution`, one that the
store held at the start, or the executor has found the backup to agree with its manifest; and that
manifest the store held at the start, or the executor has made it with an authorization for a
client's request. -/
theorem completed_verified (cfg : Config) (now : DateTime) (disk : List Doc)
    (p : Tasks kind)
    (reach : (system (service cfg)).Reachable (State.start now disk) p) (b : Backup)
    (past : List (Event kind)) (hs : (.put (.record b) :: past) <:+ p.state.history)
    (hb : b.status = .completed) :
    (∃ b₀, .record b₀ ∈ disk ∧ b = { b₀ with execution := b.execution }) ∨
    ∃ backup manifest verification before,
      (.marked (.verified backup manifest verification) :: before) <:+ past ∧
      verification.status = .verified ∧ manifest.backupId = b.id ∧
      b = { backup with
        status := .completed, verificationStatus := .verified, execution := b.execution } ∧
      (.manifest manifest ∈ disk ∨
        ∃ plan input grant, Made disk before plan input grant manifest) := by
  have hh := ((service_sound disk).always reach).suffix hs
  refine ((show Borne disk past (.record b) from hh.1) hb).imp_right ?_
  rintro ⟨backup, manifest, verification, hverified, hstatus, heq⟩
  obtain ⟨before, hbefore, ⟨hid, -, hheld⟩, hlawful⟩ := hh.2.exists_past hverified
  refine ⟨backup, manifest, verification, before, hbefore, hstatus, ?_, heq, ?_⟩
  · rw [heq]
    exact hid.symm
  · by_cases hold : .manifest manifest ∈ disk
    · exact .inl hold
    · exact .inr (made_of_put hlawful (hheld.resolve_left hold) hold)

def Event.completes : Event kind → Bool
  | .put (.record b) => b.status = .completed
  | _ => false

/-- The backup of the sample is completed with a manifest that the executor has made. -/
theorem completed_verified_run : ∃ b past plan input grant manifest,
    (.put (.record b) :: past) <:+ sampleRun.state.history ∧ b.status = .completed ∧
    manifest.backupId = b.id ∧ Made [.plan samplePlan] past plan input grant manifest := by
  have hany : sampleRun.state.history.any Event.completes = true := by decide +kernel
  obtain ⟨e, he, hcompletes⟩ := List.any_eq_true.mp hany
  obtain ⟨past, hs⟩ := exists_suffix_of_mem he
  cases e with
  | marked m => cases hcompletes
  | put d =>
    cases d with
    | record b =>
      have hb : b.status = .completed := of_decide_eq_true hcompletes
      rcases completed_verified sampleConfig 5 [.plan samplePlan] sampleRun sampleRun_reachable b past
        hs hb with ⟨b₀, hmem, -⟩ | ⟨backup, manifest, verification, before, hbefore, -, hid, -, hmade⟩
      · cases List.mem_singleton.mp hmem
      · rcases hmade with hmem | ⟨plan, input, grant, hmade⟩
        · cases List.mem_singleton.mp hmem
        · have hpast := (List.suffix_cons _ _).trans hbefore
          exact ⟨b, past, plan, input, grant, manifest, hs, hb, hid,
            hmade.order.trans hpast.sublist, hmade.authorized.suffix hpast⟩
    | _ => cases hcompletes

end Ares.Backups.Service
