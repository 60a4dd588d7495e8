import AetherRadio.Lib.Machine
import AetherRadio.Lib.Table
import AetherRadio.Shm.Image

/-!
# Attaching to the ring file

`ShmPacketRing::open` and the starts of `fpga-emit` and `host-recv` in `crates/cli/src/main.rs`,
over a file system that maps paths to contents. Which calls of the operating system fail is a
parameter; a call that fails leaves the files as they are. Sizes are `usize` and wrap as in a
release build.
-/

namespace AetherRadio.Shm

open Verif

/-- The ring configuration as parsed. From `crates/shm-io/src/lib.rs:21–28`. -/
structure ShmLinkConfig where
  path : String
  slotCount : UInt64
  slotBytes : UInt64
  create : Bool

/-- The calls `open` makes, each with the error it fails with, if it fails. The length is asked for
again for the message that the file is too small. -/
structure OsErrors where
  createDirAll : Option String
  openFile : Option String
  setLen : Option String
  metadata : Option String
  metadataAgain : Option String
  mmap : Option String

/-- No call fails. -/
def OsErrors.none : OsErrors where
  createDirAll := .none
  openFile := .none
  setLen := .none
  metadata := .none
  metadataAgain := .none
  mmap := .none

/-- The files and their contents. -/
abbrev Files := Table String (List UInt8)

/-- A process that has mapped a ring. -/
structure Attachment where
  path : String
  slotCount : UInt64
  slotBytes : UInt64
  deriving DecidableEq

/-- What `open` returns. -/
abbrev OpenResult := Outcome (Except ShmIoError Attachment)

namespace ShmLinkConfig

/-- The size of the mapping. -/
def total (self : ShmLinkConfig) : UInt64 := 64 + self.slotCount * (8 + self.slotBytes)

/-- The layout, when the size does not wrap. -/
def layout? (self : ShmLinkConfig) : Option Layout :=
  if h : 0 < self.slotCount.toNat ∧ 64 ≤ self.slotBytes.toNat ∧
      headerBytes + self.slotCount.toNat * slotStride self.slotBytes.toNat < 2 ^ 64 then
    some ⟨self.slotCount.toNat, self.slotBytes.toNat, h.1, h.2.1, h.2.2⟩
  else none

/-- The handle `open` returns. -/
def attachment (self : ShmLinkConfig) : Attachment :=
  { path := self.path, slotCount := self.slotCount, slotBytes := self.slotBytes }

end ShmLinkConfig

/-- The rest of `open` on an emptied file. A mapping whose size has wrapped is smaller than its
slots, and `init_ring` stores outside of it. From `crates/shm-io/src/lib.rs:80–103`. -/
def createRing (os : OsErrors) (files : Files) (cfg : ShmLinkConfig) : Files × OpenResult :=
  match os.setLen with
  | some e => (files, .ret (.error (.io e)))
  | none =>
    let files := files.insert cfg.path (List.replicate cfg.total.toNat 0)
    match os.mmap with
    | some e => (files, .ret (.error (.io e)))
    | none =>
      match cfg.layout? with
      | none => (files, .panic)
      | some l =>
        (files.insert cfg.path (ShmImage.initRing l).bytes, .ret (.ok cfg.attachment))

/-- The rest of `open` on a file with contents. From `crates/shm-io/src/lib.rs:82–103`. -/
def attachRing (os : OsErrors) (found : List UInt8) (cfg : ShmLinkConfig) : OpenResult :=
  match os.metadata with
  | some e => .ret (.error (.io e))
  | none =>
    let total := cfg.total.toNat
    if found.length < total then
      match os.metadataAgain with
      | some e => .ret (.error (.io e))
      | none => .ret (.error (.config s!"shm file too small: {found.length} < {total}"))
    else
      match os.mmap with
      | some e => .ret (.error (.io e))
      | none =>
        match ShmImage.validateHeader (found.take total) (UInt32.ofNat cfg.slotCount.toNat)
          (UInt32.ofNat cfg.slotBytes.toNat) with
        | .panic => .panic
        | .ret (.error e) => .ret (.error e)
        | .ret (.ok ()) => .ret (.ok cfg.attachment)

/-- `ShmPacketRing::open`. The file is created when it is missing, whatever `create` says, and
emptied when `create` is set. From `crates/shm-io/src/lib.rs:63–103`. -/
def openRing (os : OsErrors) (files : Files) (cfg : ShmLinkConfig) : Files × OpenResult :=
  if cfg.slotCount = 0 ∨ cfg.slotBytes < 64 then
    (files, .ret (.error (.config "slot_count > 0 and slot_bytes >= 64 required")))
  else
    match os.createDirAll with
    | some e => (files, .ret (.error (.io e)))
    | none =>
      match os.openFile with
      | some e => (files, .ret (.error (.io e)))
      | none =>
        if cfg.create then createRing os (files.insert cfg.path []) cfg
        else
          let found := (files.get? cfg.path).getD []
          (files.insert cfg.path found, attachRing os found cfg)

/-- The attach stops before it has opened the file. -/
def RefusedEarly (os : OsErrors) (cfg : ShmLinkConfig) : Prop :=
  cfg.slotCount = 0 ∨ cfg.slotBytes < 64 ∨ os.createDirAll ≠ none ∨ os.openFile ≠ none

/-- The file is there, or the attach does not get to it. With a size that wraps to zero the missing
file is not too small, and the header of the empty mapping is sliced. -/
def LeavesNoTrace (os : OsErrors) (files : Files) (cfg : ShmLinkConfig) : Prop :=
  files.get? cfg.path ≠ none ∨ RefusedEarly os cfg ∨
    (cfg.total = 0 ∧ os.metadata = none ∧ os.mmap = none)

section Attach

variable {os : OsErrors} {files : Files} {cfg : ShmLinkConfig}

/-- An open that is refused early leaves the files. -/
theorem openRing_early (files : Files) (h : RefusedEarly os cfg) :
    ∃ e, openRing os files cfg = (files, .ret (.error e)) := by
  unfold openRing
  by_cases hsizes : cfg.slotCount = 0 ∨ cfg.slotBytes < 64
  · rw [if_pos hsizes]
    exact ⟨_, rfl⟩
  · rw [if_neg hsizes]
    cases hdir : os.createDirAll with
    | some e => exact ⟨_, rfl⟩
    | none =>
      cases hopen : os.openFile with
      | some e => exact ⟨_, rfl⟩
      | none => grind [RefusedEarly]

/-- An open that gets to the file creates it when it is missing. -/
theorem openRing_late (h : ¬ RefusedEarly os cfg) :
    openRing os files cfg =
      if cfg.create then createRing os (files.insert cfg.path []) cfg
      else (files.insert cfg.path ((files.get? cfg.path).getD []),
        attachRing os ((files.get? cfg.path).getD []) cfg) := by
  unfold RefusedEarly at h
  have hdir : os.createDirAll = none := by
    by_contra hne
    exact h (.inr (.inr (.inl hne)))
  have hopen : os.openFile = none := by
    by_contra hne
    exact h (.inr (.inr (.inr hne)))
  have hsizes : ¬ (cfg.slotCount = 0 ∨ cfg.slotBytes < 64) := by
    intro hor
    exact h (hor.imp_right .inl)
  unfold openRing
  rw [if_neg hsizes, hdir, hopen]

/-- On an empty file the attach fails, unless the size has wrapped to zero. -/
theorem attachRing_empty :
    (∃ e, attachRing os [] cfg = .ret (.error e)) ↔
      ¬ (cfg.total = 0 ∧ os.metadata = none ∧ os.mmap = none) := by
  unfold attachRing
  cases hmeta : os.metadata with
  | some e => simp
  | none =>
    by_cases hzero : cfg.total = 0
    · have hlen : ¬ ([] : List UInt8).length < cfg.total.toNat := by
        rw [hzero]
        exact Nat.lt_irrefl 0
      dsimp only
      rw [if_neg hlen]
      cases hmmap : os.mmap with
      | some e => simp
      | none =>
        have hpanic : ShmImage.validateHeader (([] : List UInt8).take cfg.total.toNat)
            (UInt32.ofNat cfg.slotCount.toNat) (UInt32.ofNat cfg.slotBytes.toNat) = .panic := by
          rw [List.take_nil]
          rfl
        dsimp only
        rw [hpanic]
        simp [hzero]
    · have hlen : ([] : List UInt8).length < cfg.total.toNat := by
        apply Nat.pos_of_ne_zero
        intro htotal
        exact hzero (UInt64.toNat_inj.mp htotal)
      dsimp only
      rw [if_pos hlen]
      cases os.metadataAgain <;> simp [hzero]

/-- A refused attach leaves the files as they were exactly when the file was there or the attach did
not get to it. -/
theorem openRing_error_iff (hcreate : cfg.create = false) :
    (∀ e, (openRing os files cfg).2 = .ret (.error e) → (openRing os files cfg).1 = files) ↔
      LeavesNoTrace os files cfg := by
  unfold LeavesNoTrace
  by_cases hearly : RefusedEarly os cfg
  · obtain ⟨e, hopen⟩ := openRing_early files hearly
    rw [hopen]
    exact ⟨fun _ ↦ .inr (.inl hearly), fun _ _ _ ↦ rfl⟩
  · rw [openRing_late hearly, hcreate, if_neg (by decide)]
    cases hfile : files.get? cfg.path with
    | some found =>
      refine ⟨fun _ ↦ .inl nofun, fun _ _ _ ↦ ?_⟩
      exact Table.insert_eq_self hfile
    | none =>
      have hchanged : files.insert cfg.path [] ≠ files := by
        intro hsame
        have hget := files.get?_insert_self cfg.path []
        rw [hsame, hfile] at hget
        cases hget
      constructor
      · intro h
        by_contra hnot
        obtain ⟨e, he⟩ := attachRing_empty.mpr fun hzero ↦ hnot (.inr (.inr hzero))
        exact hchanged (h e he)
      · rintro (hsome | habsurd | hzero) e he
        · exact absurd rfl hsome
        · exact absurd habsurd hearly
        · exact absurd hzero (attachRing_empty.mp ⟨e, he⟩)

end Attach

/-- The programs that open the ring. -/
inductive Start where
  | hostRecv (os : OsErrors)
  | fpgaEmit (os : OsErrors)

/-- `run_host_recv` and `run_fpga_emit` up to the open: the first never creates the ring, the second
does when the path does not exist. From `crates/cli/src/main.rs:866–869,894–895,1004–1006`. -/
def Start.opens (cfg : ShmLinkConfig) (files : Files) : Start → Files × OpenResult
  | .hostRecv os => openRing os files { cfg with create := false }
  | .fpgaEmit os => openRing os files { cfg with create := (files.get? cfg.path).isNone }

/-- The file system under the starts of the two programs. -/
def startOrder (cfg : ShmLinkConfig) : Machine Files Start OpenResult where
  step := Start.opens cfg

/-- A layout that fits has the size of the mapping. -/
theorem ShmLinkConfig.layout?_spec {cfg : ShmLinkConfig} {l : Layout}
    (h : cfg.layout? = some l) : l.slotCount = cfg.slotCount.toNat ∧
      l.slotBytes = cfg.slotBytes.toNat ∧ l.total = cfg.total.toNat := by
  unfold layout? at h
  by_cases hfits : 0 < cfg.slotCount.toNat ∧ 64 ≤ cfg.slotBytes.toNat ∧
      headerBytes + cfg.slotCount.toNat * slotStride cfg.slotBytes.toNat < 2 ^ 64
  · rw [dif_pos hfits] at h
    cases h
    refine ⟨rfl, rfl, ?_⟩
    obtain ⟨hcount, -, htotal⟩ := hfits
    unfold headerBytes slotStride at htotal
    have hstride := Nat.le_mul_of_pos_left (8 + cfg.slotBytes.toNat) hcount
    change 64 + cfg.slotCount.toNat * (8 + cfg.slotBytes.toNat) = _
    rw [total, UInt64.toNat_add, UInt64.toNat_mul, UInt64.toNat_add]
    change _ = (64 + cfg.slotCount.toNat * ((8 + cfg.slotBytes.toNat) % 2 ^ 64) % 2 ^ 64) % 2 ^ 64
    rw [Nat.mod_eq_of_lt (by omega : 8 + cfg.slotBytes.toNat < 2 ^ 64),
      Nat.mod_eq_of_lt (by omega : cfg.slotCount.toNat * (8 + cfg.slotBytes.toNat) < 2 ^ 64),
      Nat.mod_eq_of_lt htotal]
  · rw [dif_neg hfits] at h
    cases h

/-- A ring created at the path can be attached to. -/
private theorem attachRing_created {cfg : ShmLinkConfig} {l : Layout} (h : cfg.layout? = some l) :
    attachRing .none (ShmImage.initRing l).bytes cfg = .ret (.ok cfg.attachment) := by
  obtain ⟨hcount, hbytes, htotal⟩ := ShmLinkConfig.layout?_spec h
  have hlen : (ShmImage.initRing l).bytes.length = cfg.total.toNat :=
    (ShmImage.initRing l).length_eq.trans htotal
  have haccepted := ShmImage.validateHeader_initRing l
  rw [hcount, hbytes] at haccepted
  unfold attachRing
  dsimp only [OsErrors.none]
  rw [if_neg (by omega), ← hlen, List.take_length, haccepted]

/-- A ring is created with the bytes `init_ring` leaves. -/
private theorem createRing_ok {cfg : ShmLinkConfig} {files : Files} {os : OsErrors}
    {attachment : Attachment} (h : (createRing os files cfg).2 = .ret (.ok attachment)) :
    ∃ l, cfg.layout? = some l ∧ attachment = cfg.attachment ∧
      (createRing os files cfg).1.get? cfg.path = some (ShmImage.initRing l).bytes := by
  unfold createRing at h ⊢
  cases hlen : os.setLen with
  | some e =>
    rw [hlen] at h
    cases h
  | none =>
    cases hmmap : os.mmap with
    | some e =>
      rw [hlen, hmmap] at h
      cases h
    | none =>
      cases hlayout : cfg.layout? with
      | none =>
        rw [hlen, hmmap, hlayout] at h
        cases h
      | some l =>
        rw [hlen, hmmap, hlayout] at h
        cases h
        exact ⟨l, rfl, rfl, Table.get?_insert_self ..⟩

/-- A host-recv that starts after the fpga-emit that created the ring attaches to it. -/
theorem hostRecv_after_fpgaEmit {cfg : ShmLinkConfig} {files : Files} {os : OsErrors}
    {attachment : Attachment} (hmissing : files.get? cfg.path = none)
    (hemit : ((Start.fpgaEmit os).opens cfg files).2 = .ret (.ok attachment)) :
    ((Start.hostRecv .none).opens cfg ((Start.fpgaEmit os).opens cfg files).1).2 =
      .ret (.ok attachment) := by
  have hcreates : (Start.fpgaEmit os).opens cfg files =
      openRing os files { cfg with create := true } := by
    rw [Start.opens, hmissing]
    rfl
  rw [hcreates] at hemit ⊢
  by_cases hearly : RefusedEarly os { cfg with create := true }
  · obtain ⟨e, hopen⟩ := openRing_early files hearly
    rw [hopen] at hemit
    cases hemit
  · rw [openRing_late hearly, if_pos rfl] at hemit ⊢
    obtain ⟨l, hlayout, hattachment, hcontent⟩ := createRing_ok hemit
    have hattach : ¬ RefusedEarly .none { cfg with create := false } := by
      intro hnone
      apply hearly
      rcases hnone with hcount | hbytes | habsurd | habsurd
      · exact .inl hcount
      · exact .inr (.inl hbytes)
      · exact absurd rfl habsurd
      · exact absurd rfl habsurd
    have hfound : ((createRing os (files.insert cfg.path []) { cfg with create := true }).1.get?
        cfg.path).getD [] = (ShmImage.initRing l).bytes := by
      rw [hcontent, Option.getD_some]
    have hreads : attachRing .none (ShmImage.initRing l).bytes { cfg with create := false } =
        .ret (.ok cfg.attachment) := attachRing_created hlayout
    rw [Start.opens, openRing_late hattach, if_neg Bool.false_ne_true]
    change attachRing .none (((createRing os (files.insert cfg.path [])
      { cfg with create := true }).1.get? cfg.path).getD []) { cfg with create := false } = _
    rw [hfound, hreads, hattachment]
    rfl

/-- A host-recv that could not attach. -/
def attachFailed : Start × OpenResult → Bool
  | (.hostRecv _, .ret (.error _)) => true
  | _ => false

/-- The starts without the host-recvs that could not attach. -/
def withoutFailed (cfg : ShmLinkConfig) (files : Files) : List Start → List Start
  | [] => []
  | start :: starts =>
    let rest := withoutFailed cfg (start.opens cfg files).1 starts
    if attachFailed (start, (start.opens cfg files).2) then rest else start :: rest

/-- A start that is a host-recv leaves no trace. -/
def StartLeavesNoTrace (cfg : ShmLinkConfig) (files : Files) : Start → Prop
  | .hostRecv os => LeavesNoTrace os files { cfg with create := false }
  | .fpgaEmit _ => True

/-- A failed host-recv that leaves no trace leaves the files. -/
private theorem opens_failed {cfg : ShmLinkConfig} {files : Files} {start : Start}
    (hfailed : attachFailed (start, (start.opens cfg files).2) = true)
    (htrace : StartLeavesNoTrace cfg files start) : (start.opens cfg files).1 = files := by
  cases start with
  | fpgaEmit os => cases hfailed
  | hostRecv os =>
    cases hresult : (openRing os files { cfg with create := false }).2 with
    | panic =>
      change attachFailed (_, (openRing os files { cfg with create := false }).2) = true at hfailed
      rw [hresult] at hfailed
      cases hfailed
    | ret result =>
      cases result with
      | error e => exact (openRing_error_iff rfl).mpr htrace e hresult
      | ok attachment =>
        change attachFailed (_, (openRing os files { cfg with create := false }).2) = true
          at hfailed
        rw [hresult] at hfailed
        cases hfailed

/-- The other starts are answered as if the failed ones had not been. -/
private theorem trace_withoutFailed {cfg : ShmLinkConfig} {files : Files} {starts : List Start}
    (h : (startOrder cfg).Permits (fun files start ↦
      attachFailed (start, (start.opens cfg files).2) → StartLeavesNoTrace cfg files start)
      files starts) :
    (startOrder cfg).trace files (withoutFailed cfg files starts) =
      ((startOrder cfg).trace files starts).filter (fun entry ↦ !attachFailed entry) := by
  induction starts generalizing files with
  | nil => rfl
  | cons start starts ih =>
    have hrest : (startOrder cfg).trace (start.opens cfg files).1
        (withoutFailed cfg (start.opens cfg files).1 starts) =
        ((startOrder cfg).trace (start.opens cfg files).1 starts).filter
          (fun entry ↦ !attachFailed entry) := ih h.2
    rw [withoutFailed, Machine.trace_cons, List.filter_cons]
    change (startOrder cfg).trace files (if attachFailed (start, (start.opens cfg files).2) then _
      else _) = if !attachFailed (start, (start.opens cfg files).2) then _ else _
    cases hfailed : attachFailed (start, (start.opens cfg files).2) with
    | false =>
      rw [if_neg (by decide), if_pos (by decide), Machine.trace_cons]
      exact congrArg _ hrest
    | true =>
      have hsame := opens_failed hfailed (h.1 hfailed)
      rw [if_pos (by decide), if_neg (by decide)]
      change _ = ((startOrder cfg).trace (start.opens cfg files).1 starts).filter _
      rw [← hrest, hsame]

/-- For every file system, every configuration and every set of failing calls: an attach without
`create` that is refused leaves the files as they were if and only if the ring file was there or the
attach did not get to open it. For every order of starts in which each failed host-recv leaves no
trace in this sense, all other starts are answered as if the failed ones had not been. -/
theorem refused_attach_traceless_iff (cfg : ShmLinkConfig) :
    (∀ os files,
      (∀ e, (openRing os files { cfg with create := false }).2 = .ret (.error e) →
        (openRing os files { cfg with create := false }).1 = files) ↔
      LeavesNoTrace os files { cfg with create := false }) ∧
    ∀ files starts,
      (startOrder cfg).Permits (fun files start ↦
        attachFailed (start, (start.opens cfg files).2) → StartLeavesNoTrace cfg files start)
        files starts →
      (startOrder cfg).trace files (withoutFailed cfg files starts) =
        ((startOrder cfg).trace files starts).filter (fun entry ↦ !attachFailed entry) :=
  ⟨fun _ _ ↦ openRing_error_iff rfl, fun _ _ ↦ trace_withoutFailed⟩

/-- A host-recv that starts first is refused and leaves an empty file, and the fpga-emit that would
have created the ring is refused for it. -/
theorem refused_attach_leaves_file :
    let cfg : ShmLinkConfig :=
      { path := "/dev/shm/aether_ring", slotCount := 8, slotBytes := 64, create := false }
    let found := (Start.hostRecv .none).opens cfg Table.empty
    found.2 = .ret (.error (.config "shm file too small: 0 < 640")) ∧
      found.1.get? cfg.path = some [] ∧
      ((Start.fpgaEmit .none).opens cfg found.1).2 =
        .ret (.error (.config "shm file too small: 0 < 640")) ∧
      ((Start.fpgaEmit .none).opens cfg Table.empty).2 = .ret (.ok cfg.attachment) := by
  decide +kernel

end AetherRadio.Shm
