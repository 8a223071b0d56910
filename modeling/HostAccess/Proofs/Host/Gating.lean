import HostAccess.Proofs.Host.Calls
import HostAccess.Proofs.Host.Served

/-!
# Capabilities gate operations

What a host can do is settled when it is opened. A call whose capability is absent is refused
and does nothing at all, not even a call of a library (`HostAccess.Host.perform_of_absent`).
One whose capability is present is never refused that way, so nothing that it needs is missing
(`HostAccess.Host.Opened.served_perform`).

`HostAccess.Host.capabilities_gate`, the main result, says both of every step of every program,
and which capabilities there are: whatever the libraries, the files and the users.
-/

namespace HostAccess

variable {W L α β : Type}

/-! ### Guards -/

namespace CapabilitySet

variable {s : CapabilitySet} {c : Capability} {x : Session W (Except HostError α)}

theorem guard_of_absent (h : s.contains c = false) :
    s.guard c x = pure (.error (.unsupported c)) := by
  rw [guard, require, h, if_neg Bool.false_ne_true]

theorem guard_of_present (h : s.contains c = true) : s.guard c x = x := by
  rw [guard, require, if_pos h]

/-- An operation behind a guard, with something made of its answer. -/
theorem map_guard_of_absent (f : α → β) (h : s.contains c = false) :
    Except.map f <$> s.guard c x = pure (.error (.unsupported c)) := by
  rw [guard_of_absent h, map_pure]
  rfl

theorem served_guard (h : s.contains c = true) (hx : x.Served) : (s.guard c x).Served := by
  rwa [guard_of_present h]

end CapabilitySet

namespace Host

open CapabilitySet Session

variable {h : Host L} {call : HostCall} {c : Capability}

/-! ### One call -/

/-- **A call whose capability is absent does nothing** but say so. -/
theorem perform_of_absent (hneeds : call.needs = some c)
    (habsent : h.capabilities.contains c = false) :
    h.perform call = pure (.error (.unsupported c)) := by
  cases call <;> cases hneeds <;> exact map_guard_of_absent _ habsent

namespace Opened

variable {s : Surroundings L} {settings : Settings}

theorem served_files (hopen : h.Opened s settings) : h.files.Served := by
  rw [hopen.files]
  exact served_fileChain ..

/-- A host that offers logins has a library to ask. -/
theorem served_authenticate (hopen : h.Opened s settings)
    (hpresent : h.capabilities.contains .pamAuth = true) (service : Option String)
    (user password : String) : (h.authenticate service user password).Served := by
  obtain ⟨pam, hpam⟩ : ∃ pam, h.pam = some pam :=
    Option.isSome_iff_exists.1 ((hopen.capabilities .pamAuth).symm.trans hpresent)
  have hgroups (user : String) : (pam.groupsOf user).Served := by
    rw [hopen.groupsOf pam hpam]
    exact Served.pure (s.accounts.isUnsupported_groupsOf user)
  refine served_guard hpresent ?_
  rw [hpam]
  exact (pam.served_authenticate hgroups service user password).within

/-- A host that offers datasets has a library to ask. -/
theorem served_datasetExists (hopen : h.Opened s settings)
    (hpresent : h.capabilities.contains .zfs = true) (name : String) :
    (h.datasetExists name).Served := by
  obtain ⟨datasets, hdatasets⟩ : ∃ datasets, h.datasets = some datasets :=
    Option.isSome_iff_exists.1 ((hopen.capabilities .zfs).symm.trans hpresent)
  refine served_guard hpresent ?_
  rw [hdatasets]
  exact (datasets.served_exists? name).within

/-- **A call whose capability is present is served**, from whatever world. -/
theorem served_perform (hopen : h.Opened s settings) (hneeds : call.needs = some c)
    (hpresent : h.capabilities.contains c = true) : (h.perform call).Served := by
  have hfiles := hopen.served_files
  cases call <;> cases hneeds
  case processes =>
    exact (served_guard hpresent (Served.within fun _ => rfl)).map _
  case systemMemory =>
    refine (served_guard hpresent (Served.look fun w => ?_)).map _
    cases w.memory with
    | error code => rfl
    | ok text => exact SystemMemory.isUnsupported_ofText text
  case lastError =>
    exact (served_guard hpresent (Served.look fun _ => rfl)).map _
  case canRestart =>
    exact (served_guard hpresent (Served.look fun _ => rfl)).map _
  case restart extra =>
    exact (served_guard hpresent (served_restart _ _ extra).within).map _
  case chmod path mode =>
    exact (served_guard hpresent (hfiles.chmod path mode).within).map _
  case chown path owner group =>
    exact (served_guard hpresent (FileHost.served_chown path owner group).within).map _
  case mode path =>
    exact (served_guard hpresent (FileHost.served_mode path).within).map _
  case makeWritable path =>
    exact (served_guard hpresent (hfiles.makeWritable path).within).map _
  case symlink target link =>
    refine (served_guard hpresent (Served.bind fun _ => ?_)).map _
    exact (hfiles.symlink target link).within
  case resolveLink link =>
    exact (served_guard hpresent (hfiles.readlink link).within).map _
  case moveFile path path' =>
    exact (served_guard hpresent (FileHost.served_move path path').within).map _
  case euid =>
    exact (served_guard hpresent (Served.pure rfl)).map _
  case egid =>
    exact (served_guard hpresent (Served.pure rfl)).map _
  case processUser =>
    exact (served_guard hpresent (Served.pure (Accounts.isUnsupported_nameOf _ _))).map _
  case isUser name =>
    exact (served_guard hpresent (Served.pure rfl)).map _
  case isGroup name =>
    exact (served_guard hpresent (Served.pure rfl)).map _
  case authenticate service user password =>
    exact (hopen.served_authenticate hpresent service user password).map _
  case checkPamSetup =>
    exact (served_guard hpresent (Served.look fun _ => rfl)).map _
  case datasetExists name =>
    exact (hopen.served_datasetExists hpresent name).map _

end Opened

/-! ### Programs -/

/-- **Capabilities gate operations.** A host that is opened in any surroundings, with the calls
of the libraries recorded, offers logins just if the PAM library that is chosen, by its name or
else by the first usual name that leads to one, offers all symbols of a login; datasets just if
they are wanted, the ZFS library that is chosen offers all symbols it needs, and it answered with a
handle; never the moves of another family of systems; and all else. That stays so for any calls in
any world: asked for its capabilities, the host always gives these. A call whose capability is
absent is refused for want of it, writes nothing and leaves the world as it was, with no call of a
library more. A call whose capability is present is never refused for want of one. -/
theorem capabilities_gate (s : Surroundings L) (settings : Settings) (l : L) :
    let h := ((ofSettings s.traced settings).run (l, [])).value
    (.pamAuth ∈ h.capabilities ↔ ∃ library,
      s.linker.Chooses settings.pamLibrary ["libpam.so.0", "libpam.so"] library ∧
      ∀ symbol ∈ ["pam_start", "pam_authenticate", "pam_acct_mgmt", "pam_end", "pam_strerror"],
        library.offers symbol = true) ∧
    (.zfs ∈ h.capabilities ↔ settings.enableZfs = true ∧
      (∃ library, s.linker.Chooses settings.zfsLibrary
        ["libzfs.so.6", "libzfs.so.4", "libzfs.so.2", "libzfs.so.1", "libzfs.so"] library ∧
        ∀ symbol ∈ ["libzfs_init", "libzfs_fini", "zfs_dataset_exists"],
          library.offers symbol = true) ∧
      (s.zfs.init.run l).value = true) ∧
    .windowsFileMove ∉ h.capabilities ∧
    (∀ c, c ≠ .pamAuth → c ≠ .zfs → c ≠ .windowsFileMove → c ∈ h.capabilities) ∧
    ∀ (calls : List HostCall) (w : HostWorld (L × List LibraryEvent)),
      ∀ step ∈ h.steps calls w,
        (step.call = .capabilities → step.outcome.value = .ok (.capabilities h.capabilities)) ∧
        (∀ c, step.call = .supports c →
          step.outcome.value = .ok (.flag (decide (c ∈ h.capabilities)))) ∧
        (∀ c, step.call.needs = some c → c ∉ h.capabilities →
          step.outcome = ⟨.error (.unsupported c), [], step.before⟩) ∧
        (∀ c, step.call.needs = some c → c ∈ h.capabilities →
          ∀ c', step.outcome.value ≠ .error (.unsupported c')) := by
  intro h
  have hopen : h.Opened s.traced settings := opened_ofSettings s.traced settings (l, [])
  have hmem := mem_capabilities_iff s.traced settings (l, [])
  refine ⟨hmem .pamAuth, hmem .zfs, (hmem .windowsFileMove).1, fun c hpam hzfs hmove => ?_,
    fun calls w step hstep => ?_⟩
  · refine (hmem c).2 ?_
    cases c <;> trivial
  · -- What a step does depends on its call and its world only, not on the steps before it.
    rw [outcome_of_mem_steps hstep]
    refine ⟨fun hcall => ?_, fun c hcall => ?_, fun c hneeds habsent => ?_,
      fun c hneeds hpresent c' hrefused => ?_⟩
    · rw [hcall]
      rfl
    · rw [hcall]
      exact congrArg (fun answer => Except.ok (HostValue.flag answer)) Bool.decide_eq_true.symm
    · rw [perform_of_absent hneeds (Bool.eq_false_iff.2 habsent), run_pure]
    · have hserved := hopen.served_perform hneeds hpresent step.before
      rw [hrefused] at hserved
      exact Bool.false_ne_true hserved.symm

end Host

end HostAccess
