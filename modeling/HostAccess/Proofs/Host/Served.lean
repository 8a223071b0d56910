import HostAccess.Proofs.Host.Opening
import HostAccess.Proofs.File.Calls

/-!
# Operations that are served

An operation behind a guard may still find, once it was let through, that what it needs is not
there. It does not: an operation that is let through answers anything but that it is not
supported. `HostAccess.Session.Served` says so of a session, from every world, and is proved
along the definitions, one lemma for each way in which sessions are put together and one for
each operation.

Logins and datasets go through a library that a host may lack, and there the opening of the
host counts: `HostAccess.Host.Opened`.
-/

namespace HostAccess

variable {F W V L α β : Type}

/-- Whether the cause of an error is that a capability is absent. -/
def HostError.isUnsupported : HostError → Bool
  | .unsupported _ => true
  | _ => false

/-- Whether an operation was refused because a capability is absent. -/
def isUnsupported : Except HostError α → Bool
  | .ok _ => false
  | .error e => e.isUnsupported

theorem isUnsupported_map (f : α → β) (r : Except HostError α) :
    isUnsupported (r.map f) = isUnsupported r := by
  cases r <;> rfl

theorem isUnsupported_seqRight {r : Except HostError β} {r' : Except HostError α}
    (h : isUnsupported r = false) (h' : isUnsupported r' = false) :
    isUnsupported (r *> r') = false := by
  cases r with
  | error e => exact h
  | ok _ => exact h'

/-- Whether a session is never refused for want of a capability. -/
def Session.Served (x : Session W (Except HostError α)) : Prop :=
  ∀ w, isUnsupported (x.run w).value = false

namespace Session.Served

/-! ### Sessions put together -/

theorem pure {r : Except HostError α} (h : isUnsupported r = false) :
    (pure r : Session W (Except HostError α)).Served :=
  fun _ => h

theorem look {view : W → Except HostError α} (h : ∀ w, isUnsupported (view w) = false) :
    (Session.look view).Served :=
  h

/-- What matters is how a session goes on, -/
theorem bind {x : Session W β} {f : β → Session W (Except HostError α)}
    (h : ∀ b, (f b).Served) : (x >>= f).Served :=
  fun w => h _ (x.run w).world

/-- unless an answer is passed on. -/
theorem andThen {x : Session W (Except HostError β)}
    {f : Except HostError β → Session W (Except HostError α)} (hx : x.Served)
    (h : ∀ r, isUnsupported r = false → (f r).Served) : (x >>= f).Served :=
  fun w => h _ (hx w) (x.run w).world

theorem map {x : Session W (Except HostError α)} (f : α → β) (h : x.Served) :
    (Except.map f <$> x).Served := fun w => by
  rw [run_map, isUnsupported_map]
  exact h w

theorem ite {c : Prop} [Decidable c] {x y : Session W (Except HostError α)} (hx : x.Served)
    (hy : y.Served) : (if c then x else y).Served := by
  split
  · exact hx
  · exact hy

theorem within {x : Session V (Except HostError α)} {part : W → V} {put : V → W → W}
    (h : x.Served) : (x.within part put).Served :=
  fun w => h (part w)

end Session.Served

/-! ### Files -/

open Session

theorem served_readFrom {what : String} {largest : Nat}
    {read : Nat → Session W (Except HostError GrowingRead)} (h : ∀ size, (read size).Served)
    (size : Nat) (pos : 0 < size) : (readFrom what largest read size pos).Served := by
  induction hn : largest + 1 - size using Nat.strongRecOn generalizing size with
  | ind n ih =>
    rw [readFrom]
    split
    · next hle =>
      refine Served.ite (Served.pure rfl) (Served.andThen (h size) fun r hr => ?_)
      rcases r with e | ⟨reported, written⟩ | _
      · exact Served.pure hr
      · -- A buffer that was filled is doubled, which comes closer to the limit.
        dsimp only
        split
        · exact Served.pure rfl
        · split
          · exact Served.pure rfl
          · next next hnext =>
            have hlt := lt_of_doubled? pos hnext
            exact ih (largest + 1 - next) (by omega) next (by omega) rfl
      · exact Served.pure rfl
    · exact Served.pure rfl

/-- A binding of which every operation is served. -/
structure FileBinding.Served (b : FileBinding W) : Prop where
  chmod : ∀ path mode, (b.chmod path mode).Served
  symlink : ∀ target link, (b.symlink target link).Served
  readlink : ∀ link, (b.readlink link).Served

theorem served_route {log : Logger} {operation primary secondary : String}
    {x y : Session W (Except HostError α)} (hx : x.Served) (hy : y.Served) :
    (FileBinding.route log operation primary secondary x y).Served := by
  refine Served.andThen hx fun r hr => ?_
  rcases r with e | a
  · exact Served.ite (Served.bind fun _ => hy) (Served.pure hr)
  · exact Served.pure rfl

theorem FileBinding.Served.orElse {b b' : FileBinding W} (hb : b.Served) (hb' : b'.Served)
    (log : Logger) : (b.orElse b' log).Served where
  chmod path mode := served_route (hb.chmod path mode) (hb'.chmod path mode)
  symlink target link := served_route (hb.symlink target link) (hb'.symlink target link)
  readlink link := served_route (hb.readlink link) (hb'.readlink link)

theorem isUnsupported_mapError (operation : String) (r : Except Int32 α) :
    isUnsupported (r.mapError (HostError.ofCode operation)) = false := by
  cases r <;> rfl

namespace FileHost

theorem served_update (operation : String) (change : F → Except Int32 F) :
    (update operation change : Session (FileHost F W) _).Served := fun host => by
  rw [update, run_consult]
  cases change host.files <;> rfl

theorem served_inspect (operation : String) (read : F → Except Int32 α) :
    (inspect operation read : Session (FileHost F W) _).Served :=
  Served.look fun _ => isUnsupported_mapError operation _

theorem served_unlessZero {operation : String} {path : Bytes}
    {x : Session (FileHost F W) (Except HostError α)} (h : x.Served) :
    (unlessZero operation path x).Served :=
  Served.ite (Served.pure rfl) h

theorem served_mode (path : Bytes) : (mode path : Session (FileHost FileSystem W) _).Served :=
  served_unlessZero (served_inspect _ _)

theorem served_chown (path : Bytes) (owner group : UInt32) :
    (chown path owner group : Session (FileHost FileSystem W) _).Served :=
  served_unlessZero (served_update _ _)

theorem served_move (path path' : Bytes) :
    (move path path' : Session (FileHost FileSystem W) _).Served :=
  Served.ite (Served.pure rfl) (served_update _ _)

end FileHost

namespace NativeFiles

theorem served_resolved (b : NativeFiles F W) {x : Session (FileHost F W) (Except HostError α)}
    (h : x.Served) : (b.resolved x).Served := by
  refine Served.bind fun found => ?_
  rcases found with ⟨symbol, reason⟩ | _
  · exact Served.pure rfl
  · exact h

theorem served_unlessZero {path : Bytes} {x : Session (FileHost F W) (Except HostError α)}
    (h : x.Served) : (unlessZero path x).Served :=
  Served.ite (Served.pure rfl) h

theorem served_readInto (b : NativeFiles F W) (link : Bytes) (size : Nat) :
    (b.readInto link size).Served := by
  refine Served.look fun host => ?_
  cases b.system.readlink link size host.files with
  | ok answer => rfl
  | error code =>
    dsimp only
    split <;> rfl

theorem served_binding (b : NativeFiles F W) : b.binding.Served where
  chmod _ _ := b.served_resolved (served_unlessZero (FileHost.served_update _ _))
  symlink _ _ :=
    b.served_resolved (served_unlessZero (served_unlessZero (FileHost.served_update _ _)))
  readlink link :=
    b.served_resolved (served_unlessZero (served_readFrom (b.served_readInto link) _ _))

end NativeFiles

namespace FileBinding

theorem isUnsupported_linkTarget (answer : Except Int32 Bytes) :
    isUnsupported (linkTarget answer) = false := by
  cases answer with
  | ok target => rfl
  | error code =>
    dsimp only [linkTarget]
    split <;> rfl

theorem served_portable (system : FileSystemCalls F) :
    (portable system : FileBinding (FileHost F W)).Served where
  chmod _ _ := Session.Served.ite (Session.Served.pure rfl) (FileHost.served_update _ _)
  symlink _ _ := Session.Served.ite (Session.Served.pure rfl) (FileHost.served_update _ _)
  readlink _ := Served.look fun _ => isUnsupported_linkTarget _

theorem Served.makeWritable {b : FileBinding (FileHost FileSystem W)} (hb : b.Served)
    (path : Bytes) : (b.makeWritable path).Served := by
  refine Session.Served.andThen (FileHost.served_mode path) fun r hr => ?_
  rcases r with e | mode
  · exact Session.Served.pure hr
  · exact hb.chmod _ _

end FileBinding

theorem Host.served_fileChain (system : FileSystemCalls F) (linker : Linker)
    (library : Option String) (settings : Settings) :
    (Host.fileChain system linker library settings).Served :=
  (NativeFiles.served_binding _).orElse (FileBinding.served_portable system) _

/-! ### The program, its users and the libraries -/

theorem SystemMemory.isUnsupported_ofText (text : String) :
    isUnsupported (ofText text) = false := by
  rw [ofText, ofFigures]
  split <;> rfl

theorem isUnsupported_checkEntries (entries : List (String × String)) :
    isUnsupported (checkEntries entries) = false := by
  rw [checkEntries]
  split <;> rfl

theorem isUnsupported_check (plan : RestartPlan) : isUnsupported plan.check = false := by
  rw [RestartPlan.check]
  split <;> rfl

theorem served_restart (log : Logger) (run : RestartPlan → Except Int32 Unit)
    (extra : List (String × String)) : (restart log run extra).Served := by
  refine Served.bind fun plan => ?_
  rcases plan with _ | plan
  · exact Served.pure rfl
  · have hchecks := isUnsupported_seqRight (isUnsupported_checkEntries extra)
      (isUnsupported_check plan)
    dsimp only
    rcases hcheck : checkEntries extra *> plan.check with e | _
    · rw [hcheck] at hchecks
      exact Served.pure hchecks
    · refine Served.bind fun _ => Served.bind fun _ => Served.bind fun _ => ?_
      cases run plan <;> exact Served.pure rfl

namespace Accounts

theorem isUnsupported_nameOf (accounts : Accounts) (identity : Identity) :
    isUnsupported (accounts.nameOf identity) = false := by
  rw [nameOf]
  split <;> rfl

theorem isUnsupported_groupsOf (accounts : Accounts) (name : String) :
    isUnsupported (accounts.groupsOf name) = false := by
  rw [groupsOf]
  split <;> rfl

end Accounts

namespace PamLogin

theorem isUnsupported_checkTexts (service user password : String) :
    isUnsupported (checkTexts service user password) = false := by
  simp only [checkTexts, checkText]
  split <;> split <;> split <;> rfl

theorem served_rejection (l : PamLogin W) (service : String) (hasTransaction : Bool)
    (code : Int32) :
    Served (.error <$> l.rejection service hasTransaction code :
      Session W (Except HostError α)) := fun w => by
  rw [run_map, rejection, run_bind]
  cases ((l.library.describe hasTransaction code).run w).value <;> rfl

theorem served_transaction (l : PamLogin W) (service user password : String) :
    (l.transaction service user password).Served := by
  have hclose (code : Int32) {x : Session W (Except HostError Unit)} (hx : x.Served) :
      (do let outcome ← x; l.library.finish code; return outcome).Served :=
    Served.andThen hx fun _ hr => Served.bind fun _ => Served.pure hr
  refine Served.bind fun started => ?_
  split
  · exact l.served_rejection service false started
  · refine Served.bind fun authenticated => ?_
    -- Whether the account is checked makes a difference only to the code.
    dsimp only
    split <;>
    · refine Served.bind fun code => Served.ite (hclose code (Served.pure rfl)) ?_
      exact hclose code (l.served_rejection service true code)

/-- A login is served if the look-up of the groups is. -/
theorem served_authenticate (l : PamLogin W) (hgroups : ∀ user, (l.groupsOf user).Served)
    (service : Option String) (user password : String) :
    (l.authenticate service user password).Served := by
  rw [authenticate]
  have htexts := isUnsupported_checkTexts (service.getD l.defaultService) user password
  rcases hcheck : checkTexts (service.getD l.defaultService) user password with e | _
  · rw [hcheck] at htexts
    exact Served.pure htexts
  · refine Served.andThen (l.served_transaction _ _ _) fun r hr => ?_
    rcases r with e | _
    · exact Served.pure hr
    · exact Served.bind fun _ => hgroups user

end PamLogin

theorem Datasets.served_exists? (d : Datasets W) (name : String) : (d.exists? name).Served :=
  Served.ite (Served.pure rfl) (Served.bind fun _ => Served.bind fun _ => Served.pure rfl)

end HostAccess
