import HostAccess.Host
import HostAccess.Proofs.Linker
import HostAccess.Proofs.Session

/-!
# What opening a host finds out

Two capabilities depend on what is there, all others do not. Logins are offered if a PAM
library provides all symbols that a login needs, and datasets if they are wanted, a ZFS
library provides its symbols and answers with a handle:
`HostAccess.Host.mem_capabilities_iff`.

A host that was opened fits together: it holds a library exactly for a capability that it
has. `HostAccess.Host.Opened` says so, and `HostAccess.Host.opened_ofSettings` that every host
is of this kind, whatever it finds.
-/

namespace HostAccess

variable {W L : Type}

/-! ### Loading the libraries -/

theorem PamLogin.zeroFree_symbols : ZeroFreeTexts symbols := by
  decide

theorem Datasets.zeroFree_symbols : ZeroFreeTexts symbols := by
  decide

/-- A login is loaded if a library provides what it needs. -/
theorem PamLogin.run_load_of_provides {settings : Settings} {linker : Linker}
    (library : PamLibrary W) (groupsOf : String → Session W (Except HostError (List String)))
    (h : linker.Provides settings.pamLibrary libraryNames symbols) (w : W) :
    ∃ lines, (load settings linker library groupsOf).run w =
      ⟨.ok ⟨library, groupsOf, settings.pamService, settings.log.named "pam"⟩, lines, w⟩ := by
  obtain ⟨opened, hopened, hlookup⟩ := h.exists_lookupAll zeroFree_symbols
  rw [load, hopened]
  simp only [hlookup, Session.run_log_bind, Session.run_pure]
  exact ⟨_, rfl⟩

theorem PamLogin.run_load_of_not_provides {settings : Settings} {linker : Linker}
    (library : PamLibrary W) (groupsOf : String → Session W (Except HostError (List String)))
    (h : ¬linker.Provides settings.pamLibrary libraryNames symbols) (w : W) :
    ∃ e, (load settings linker library groupsOf).run w = ⟨.error e, [], w⟩ := by
  rcases Linker.lookupAll_of_not_provides h zeroFree_symbols with
    ⟨e, hopened⟩ | ⟨opened, e, hopened, hlookup⟩
  · rw [load, hopened]
    exact ⟨e, rfl⟩
  · rw [load, hopened]
    simp only [hlookup]
    exact ⟨e, rfl⟩

/-- The ZFS library is asked for a handle if it provides what is needed. -/
theorem Datasets.run_load_of_provides {settings : Settings} {linker : Linker}
    (library : ZfsLibrary W) (h : linker.Provides settings.zfsLibrary libraryNames symbols)
    (w : W) :
    let r := library.init.run w
    ∃ lines, (load settings linker library).run w =
      ⟨if r.value then .ok ⟨library, settings.log.named "zfs"⟩
        else .error (.linkage "libzfs_init" "returned no handle"), lines, r.world⟩ := by
  obtain ⟨opened, hopened, hlookup⟩ := h.exists_lookupAll zeroFree_symbols
  rw [load, hopened]
  simp only [hlookup, Session.run_bind]
  cases (library.init.run w).value <;> exact ⟨_, rfl⟩

theorem Datasets.run_load_of_not_provides {settings : Settings} {linker : Linker}
    (library : ZfsLibrary W) (h : ¬linker.Provides settings.zfsLibrary libraryNames symbols)
    (w : W) : ∃ e, (load settings linker library).run w = ⟨.error e, [], w⟩ := by
  rcases Linker.lookupAll_of_not_provides h zeroFree_symbols with
    ⟨e, hopened⟩ | ⟨opened, e, hopened, hlookup⟩
  · rw [load, hopened]
    exact ⟨e, rfl⟩
  · rw [load, hopened]
    simp only [hlookup]
    exact ⟨e, rfl⟩

/-! ### The capabilities of a host -/

namespace CapabilitySet

theorem contains_insertIf (s : CapabilitySet) (c d : Capability) (present : Bool) :
    (s.insertIf c present).contains d = (s.contains d || present && decide (c = d)) := by
  cases present
  · rw [insertIf, if_neg Bool.false_ne_true, Bool.false_and, Bool.or_false]
  · rw [insertIf, if_pos rfl, contains_insert, Bool.true_and]

end CapabilitySet

namespace Host

/-- What a capability depends on, given which of the two libraries were loaded. -/
def isOffered (pam datasets : Bool) : Capability → Bool
  | .pamAuth => pam
  | .zfs => datasets
  | .windowsFileMove => false
  | _ => true

theorem contains_capabilities (pam datasets : Bool) (c : Capability) :
    ((baseCapabilities.insertIf .pamAuth pam).insertIf .zfs datasets).contains c =
      isOffered pam datasets c := by
  rw [CapabilitySet.contains_insertIf, CapabilitySet.contains_insertIf]
  cases c <;> cases pam <;> cases datasets <;> rfl

/-- A host that was opened in some surroundings. -/
structure Opened (s : Surroundings L) (settings : Settings) (h : Host L) : Prop where
  surroundings : h.surroundings = s
  files : h.files = fileChain FileSystem.calls s.linker none settings
  capabilities : ∀ c, h.capabilities.contains c = isOffered h.pam.isSome h.datasets.isSome c
  groupsOf : ∀ pam, h.pam = some pam → ∀ user, pam.groupsOf user = pure (s.accounts.groupsOf user)

theorem value_optional {α : Type} (log : Logger) (what : String)
    (loading : Session L (Except HostError α)) (l : L) :
    ((optional log what loading).run l).value = (loading.run l).value.toOption ∧
      ((optional log what loading).run l).world = (loading.run l).world := by
  rw [optional, Session.run_bind]
  cases (loading.run l).value <;> exact ⟨rfl, rfl⟩

/-- Loading a PAM library, or nothing. -/
def pamOf (s : Surroundings L) (settings : Settings) : Session L (Option (PamLogin L)) :=
  optional (settings.log.named "unix") "PAM" <|
    PamLogin.load settings s.linker s.pam fun user => pure (s.accounts.groupsOf user)

/-- Loading a ZFS library if it is wanted, or nothing. -/
def datasetsOf (s : Surroundings L) (settings : Settings) : Session L (Option (Datasets L)) :=
  if settings.enableZfs then
    optional settings.log "ZFS" (Datasets.load settings s.linker s.zfs)
  else pure none

/-- The host that results from what was loaded. -/
def assembled (s : Surroundings L) (settings : Settings) (pam : Option (PamLogin L))
    (datasets : Option (Datasets L)) : Host L where
  surroundings := s
  settings := settings
  capabilities := (baseCapabilities.insertIf .pamAuth pam.isSome).insertIf .zfs datasets.isSome
  files := fileChain FileSystem.calls s.linker none settings
  pam := pam
  datasets := datasets
  log := settings.log.named "unix"

theorem value_ofSettings (s : Surroundings L) (settings : Settings) (l : L) :
    let pam := (pamOf s settings).run l
    let datasets := (datasetsOf s settings).run pam.world
    ((ofSettings s settings).run l).value = assembled s settings pam.value datasets.value := by
  -- Whether datasets are wanted decides between two continuations.
  cases h : settings.enableZfs <;> simp only [ofSettings, datasetsOf, h] <;> rfl

theorem run_pamOf (s : Surroundings L) (settings : Settings) (l : L) :
    let r := (pamOf s settings).run l
    (r.value.isSome = true ↔
      s.linker.Provides settings.pamLibrary PamLogin.libraryNames PamLogin.symbols) ∧
    r.world = l ∧
    ∀ pam, r.value = some pam → ∀ user, pam.groupsOf user = pure (s.accounts.groupsOf user) := by
  let groupsOf (user : String) : Session L (Except HostError (List String)) :=
    pure (s.accounts.groupsOf user)
  obtain ⟨hvalue, hworld⟩ := value_optional (settings.log.named "unix") "PAM"
    (PamLogin.load settings s.linker s.pam groupsOf) l
  intro r
  by_cases h : s.linker.Provides settings.pamLibrary PamLogin.libraryNames PamLogin.symbols
  · obtain ⟨lines, hload⟩ := PamLogin.run_load_of_provides s.pam groupsOf h l
    rw [hload] at hvalue hworld
    refine ⟨iff_of_true ?_ h, hworld, fun pam hpam user => ?_⟩
    · exact congrArg Option.isSome hvalue
    · rw [← Option.some.inj (hvalue.symm.trans hpam)]
  · obtain ⟨e, hload⟩ := PamLogin.run_load_of_not_provides s.pam groupsOf h l
    rw [hload] at hvalue hworld
    refine ⟨iff_of_false (fun hsome => ?_) h, hworld, fun pam hpam => ?_⟩
    · exact Bool.false_ne_true ((congrArg Option.isSome hvalue).symm.trans hsome)
    · exact nomatch hvalue.symm.trans hpam

theorem run_datasetsOf (s : Surroundings L) (settings : Settings) (l : L) :
    ((datasetsOf s settings).run l).value.isSome = true ↔
      settings.enableZfs = true ∧
        s.linker.Provides settings.zfsLibrary Datasets.libraryNames Datasets.symbols ∧
        (s.zfs.init.run l).value = true := by
  cases hwanted : settings.enableZfs with
  | false =>
    rw [datasetsOf, hwanted]
    exact iff_of_false Bool.false_ne_true fun h => Bool.false_ne_true h.1
  | true =>
    have hvalue := (value_optional settings.log "ZFS"
      (Datasets.load settings s.linker s.zfs) l).1
    rw [datasetsOf, hwanted, if_pos rfl, hvalue]
    by_cases h : s.linker.Provides settings.zfsLibrary Datasets.libraryNames Datasets.symbols
    · obtain ⟨lines, hload⟩ := Datasets.run_load_of_provides s.zfs h l
      rw [hload]
      cases (s.zfs.init.run l).value with
      | false => exact iff_of_false Bool.false_ne_true fun h => Bool.false_ne_true h.2.2
      | true => exact iff_of_true rfl ⟨rfl, h, rfl⟩
    · obtain ⟨e, hload⟩ := Datasets.run_load_of_not_provides s.zfs h l
      rw [hload]
      exact iff_of_false Bool.false_ne_true fun hall => h hall.2.1

/-- **What a host fits together from**, whatever it finds. -/
theorem opened_ofSettings (s : Surroundings L) (settings : Settings) (l : L) :
    ((ofSettings s settings).run l).value.Opened s settings := by
  rw [value_ofSettings]
  exact ⟨rfl, rfl, contains_capabilities _ _, (run_pamOf s settings l).2.2⟩

/-- **Which capabilities a host has.** -/
theorem mem_capabilities_iff (s : Surroundings L) (settings : Settings) (l : L)
    (c : Capability) :
    c ∈ ((ofSettings s settings).run l).value.capabilities ↔
      match c with
      | .pamAuth =>
        s.linker.Provides settings.pamLibrary PamLogin.libraryNames PamLogin.symbols
      | .zfs =>
        settings.enableZfs = true ∧
          s.linker.Provides settings.zfsLibrary Datasets.libraryNames Datasets.symbols ∧
          (s.zfs.init.run l).value = true
      | .windowsFileMove => False
      | _ => True := by
  obtain ⟨hpam, hworld, -⟩ := run_pamOf s settings l
  have hdatasets := run_datasetsOf s settings ((pamOf s settings).run l).world
  -- Looking for the PAM library leaves the world as it was, so the handle is asked for in it.
  rw [hworld] at hdatasets
  have hmem : c ∈ ((ofSettings s settings).run l).value.capabilities ↔
      isOffered ((pamOf s settings).run l).value.isSome
        ((datasetsOf s settings).run l).value.isSome c = true := by
    rw [← contains_capabilities, value_ofSettings, hworld]
    exact Iff.rfl
  rw [hmem]
  cases c with
  | pamAuth => exact hpam
  | zfs => exact hdatasets
  | windowsFileMove => exact iff_of_false Bool.false_ne_true id
  | _ => exact iff_of_true rfl trivial

end Host

end HostAccess
