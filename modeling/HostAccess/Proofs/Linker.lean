import HostAccess.Linker

/-!
# What linking needs

A library serves a purpose if it can be opened and offers every symbol that is needed:
`HostAccess.Linker.Provides`. Which library that is depends on names alone. A name leads to an
object or to none (`HostAccess.Linker.Loads`); a name that was chosen is the only one that counts,
and else the first of the usual names that leads to something
(`HostAccess.Linker.Chooses`).

* `HostAccess.Linker.chooses_of_openChosen`, `HostAccess.Linker.Chooses.exists_openChosen`: what
  is opened is the object that is chosen;
* `HostAccess.Library.lookupAll_eq_ok_iff`: the symbols are looked up one by one, and all of them
  have to be there.
-/

namespace HostAccess

/-- Whether texts can be passed to a library: none has a zero byte. -/
def ZeroFreeTexts (texts : List String) : Prop :=
  ∀ text ∈ texts, text.toList.contains '\x00' = false

instance : DecidablePred ZeroFreeTexts := fun texts =>
  inferInstanceAs (Decidable (∀ text ∈ texts, text.toList.contains '\x00' = false))

namespace Library

theorem lookup_eq_ok_iff (l : Library) {symbol : String}
    (h : symbol.toList.contains '\x00' = false) :
    l.lookup pointerSize symbol = .ok () ↔ l.object.offers symbol = true := by
  rw [lookup, if_neg (not_not_intro rfl), h, if_neg Bool.false_ne_true]
  split <;> simp_all

theorem lookupAll_eq_ok_iff (l : Library) {symbols : List String} (h : ZeroFreeTexts symbols) :
    l.lookupAll symbols = .ok () ↔ ∀ symbol ∈ symbols, l.object.offers symbol = true := by
  induction symbols with
  | nil => exact ⟨fun _ _ hmem => absurd hmem List.not_mem_nil, fun _ => rfl⟩
  | cons symbol rest ih =>
    obtain ⟨hsymbol, hrest⟩ := List.forall_mem_cons.1 h
    rw [List.forall_mem_cons, ← l.lookup_eq_ok_iff hsymbol, ← ih hrest, lookupAll]
    cases l.lookup pointerSize symbol with
    | error e => exact ⟨nofun, fun hok => nomatch hok.1⟩
    | ok _ => exact ⟨fun hok => ⟨rfl, hok⟩, fun hok => hok.2⟩

end Library

namespace Linker

/-! ### Names and objects -/

/-- **What a name leads to.** The empty name is that of the running program, and a name with a
zero byte leads nowhere. -/
inductive Loads (linker : Linker) : String → LinkedObject → Prop where
  | program : Loads linker "" linker.program
  | library {name : String} {object : LinkedObject} (nonempty : name ≠ "")
      (zeroFree : '\x00' ∉ name.toList) (load : linker.load name = .ok object) :
      Loads linker name object

/-- **The object that is chosen** by a name, or else by the first of the usual names that leads to
one. -/
inductive Chooses (linker : Linker) : Option String → List String → LinkedObject → Prop where
  | chosen {name : String} {usual : List String} {object : LinkedObject}
      (loads : linker.Loads name object) : Chooses linker (some name) usual object
  | usual {before after : List String} {name : String} {object : LinkedObject}
      (missing : ∀ other ∈ before, ∀ object, ¬linker.Loads other object)
      (loads : linker.Loads name object) : Chooses linker none (before ++ name :: after) object

/-- Whether the object that is chosen offers all of the symbols. -/
def Provides (linker : Linker) (chosen : Option String) (usual symbols : List String) : Prop :=
  ∃ object, linker.Chooses chosen usual object ∧ ∀ symbol ∈ symbols, object.offers symbol = true

variable {linker : Linker} {chosen : Option String} {usual names symbols : List String}
  {name : String} {library : Library} {object : LinkedObject}

/-! ### Opening -/

theorem open?_eq_ok_iff :
    linker.open? name = .ok library ↔ library.name = name ∧ linker.Loads name library.object := by
  obtain ⟨name', object⟩ := library
  unfold open?
  split
  · next hzero =>
    refine iff_of_false nofun ?_
    rintro ⟨rfl, ⟨⟩ | ⟨-, hfree, -⟩⟩
    · exact absurd hzero (by simp)
    · exact hfree (List.contains_iff_mem.1 hzero)
  · next hfree =>
    split
    · next hempty =>
      obtain rfl := String.isEmpty_iff.1 hempty
      constructor
      · rintro ⟨⟩
        exact ⟨rfl, .program⟩
      · rintro ⟨rfl, ⟨⟩ | ⟨hne, -, -⟩⟩
        · rfl
        · exact absurd rfl hne
    · next hne =>
      have hne : name ≠ "" := fun hname => hne (String.isEmpty_iff.2 hname)
      split
      · next reason hload =>
        refine iff_of_false nofun ?_
        rintro ⟨rfl, ⟨⟩ | ⟨-, -, hobject⟩⟩
        · exact hne rfl
        · rw [hload] at hobject
          cases hobject
      · next found hload =>
        constructor
        · rintro ⟨⟩
          exact ⟨rfl, .library hne (mt List.contains_iff_mem.2 hfree) hload⟩
        · rintro ⟨rfl, ⟨⟩ | ⟨-, -, hobject⟩⟩
          · exact absurd rfl hne
          · rw [hload] at hobject
            cases hobject
            rfl

theorem not_loads_of_open? {e : HostError} (h : linker.open? name = .error e) :
    ¬linker.Loads name object := by
  intro hloads
  have hopen : linker.open? name = .ok ⟨name, object⟩ := open?_eq_ok_iff.2 ⟨rfl, hloads⟩
  rw [hopen] at h
  cases h

theorem mapError_eq_ok_iff {ε ε' α : Type} {f : ε → ε'} {r : Except ε α} {a : α} :
    r.mapError f = .ok a ↔ r = .ok a := by
  cases r <;> constructor <;> rintro ⟨⟩ <;> rfl

/-- The first library is that of the first name that leads to one. -/
theorem firstOrReasons_eq_ok_iff :
    linker.firstOrReasons names = .ok library ↔ ∃ before name after,
      names = before ++ name :: after ∧ (∀ other ∈ before, ∀ object, ¬linker.Loads other object) ∧
      linker.open? name = .ok library := by
  induction names with
  | nil => simp [firstOrReasons]
  | cons first rest ih =>
    rw [firstOrReasons]
    rcases hopen : linker.open? first with e | opened
    · have hmissing (object : LinkedObject) : ¬linker.Loads first object :=
        not_loads_of_open? hopen
      dsimp only
      rw [mapError_eq_ok_iff, ih]
      constructor
      · rintro ⟨before, name, after, rfl, hbefore, hname⟩
        exact ⟨first :: before, name, after, rfl, List.forall_mem_cons.2 ⟨hmissing, hbefore⟩,
          hname⟩
      · rintro ⟨_ | ⟨_, before⟩, name, after, hnames, hbefore, hname⟩
        · obtain ⟨rfl, -⟩ := List.cons.inj hnames
          rw [hopen] at hname
          cases hname
        · obtain ⟨rfl, rfl⟩ := List.cons.inj hnames
          exact ⟨before, name, after, rfl, (List.forall_mem_cons.1 hbefore).2, hname⟩
    · dsimp only
      constructor
      · rintro ⟨⟩
        exact ⟨[], first, rest, rfl, by simp, hopen⟩
      · rintro ⟨_ | ⟨_, before⟩, name, after, hnames, hbefore, hname⟩
        · obtain ⟨rfl, -⟩ := List.cons.inj hnames
          obtain rfl := Except.ok.inj (hopen.symm.trans hname)
          rfl
        · obtain ⟨rfl, -⟩ := List.cons.inj hnames
          exact absurd (open?_eq_ok_iff.1 hopen).2 (hbefore _ List.mem_cons_self _)

theorem openFirst_eq_ok_iff :
    linker.openFirst names = .ok library ↔ linker.firstOrReasons names = .ok library := by
  rw [openFirst, mapError_eq_ok_iff]

/-- What is opened is the object that is chosen, -/
theorem chooses_of_openChosen (h : linker.openChosen chosen usual = .ok library) :
    linker.Chooses chosen usual library.object := by
  cases chosen with
  | some name => exact .chosen (open?_eq_ok_iff.1 h).2
  | none =>
    obtain ⟨before, name, after, rfl, hmissing, hname⟩ :=
      firstOrReasons_eq_ok_iff.1 (openFirst_eq_ok_iff.1 h)
    exact .usual hmissing (open?_eq_ok_iff.1 hname).2

/-- and what is chosen is opened. -/
theorem Chooses.exists_openChosen (h : linker.Chooses chosen usual object) :
    ∃ library, linker.openChosen chosen usual = .ok library ∧ library.object = object := by
  cases h with
  | @chosen name _ _ loads => exact ⟨⟨name, object⟩, open?_eq_ok_iff.2 ⟨rfl, loads⟩, rfl⟩
  | @usual before after name _ missing loads =>
    have hname : linker.open? name = .ok ⟨name, object⟩ := open?_eq_ok_iff.2 ⟨rfl, loads⟩
    exact ⟨⟨name, object⟩, openFirst_eq_ok_iff.2 (firstOrReasons_eq_ok_iff.2
      ⟨before, name, after, rfl, missing, hname⟩), rfl⟩

/-! ### Symbols -/

theorem Provides.exists_lookupAll (h : linker.Provides chosen usual symbols)
    (hsymbols : ZeroFreeTexts symbols) :
    ∃ library, linker.openChosen chosen usual = .ok library ∧
      library.lookupAll symbols = .ok () := by
  obtain ⟨object, hchosen, hoffers⟩ := h
  obtain ⟨library, hopen, rfl⟩ := hchosen.exists_openChosen
  exact ⟨library, hopen, (library.lookupAll_eq_ok_iff hsymbols).2 hoffers⟩

/-- What is not provided cannot be opened, or misses a symbol. -/
theorem lookupAll_of_not_provides (h : ¬linker.Provides chosen usual symbols)
    (hsymbols : ZeroFreeTexts symbols) :
    (∃ e, linker.openChosen chosen usual = .error e) ∨
      ∃ library e, linker.openChosen chosen usual = .ok library ∧
        library.lookupAll symbols = .error e := by
  rcases hopen : linker.openChosen chosen usual with e | library
  · exact .inl ⟨e, rfl⟩
  · rcases hlookup : library.lookupAll symbols with e | _
    · exact .inr ⟨library, e, rfl, hlookup⟩
    · exact absurd ⟨library.object, chooses_of_openChosen hopen,
        (library.lookupAll_eq_ok_iff hsymbols).1 hlookup⟩ h

end Linker

end HostAccess
