import MellivorKernel.Plugins.EntryPoint

/-!
# Discovery from a root

`PluginDiscovery.scan` over what the file system lists under a root, and
`discover_and_register` from there to the registry: the manifest files, the entry
points they name, the loader and its gate. The listing has no order of its own,
and the run depends on none (`discoverRoot_law`). The files stay as they are
during a run.
-/

namespace MellivorKernel

open Python Foundation

/-- A child of the root: what `is_dir` says of it, and what `is_file` says of the
manifest's name in it, with what reading that file comes to. -/
structure Child where
  name : Str
  isDir : Except Exn Bool
  manifest : Except Exn (Option (Except Str (List UInt8)))

structure Listing where
  children : List Child
  nodup : (children.map Child.name).Nodup

/-- A path, as it prints, and what listing it comes to if it is a directory. -/
structure Root where
  path : Str
  listing : Option (Except Exn Listing)

/-- `str(Path(path) / name)`, for a name without a separator. -/
def joinPath (path name : Str) : Str :=
  if path = lit "." then name
  else if path.getLast? = some (cp '/') then path ++ name
  else path ++ cp '/' :: name

/-- `sorted(root_path.iterdir())`: the paths differ in their last part. -/
def sortChildren (children : List Child) : List Child :=
  children.insertionSort fun a b => a.name ≤ b.name

/-- `child.is_dir() and (child / self._manifest_filename).is_file()` -/
def Child.holdsPlugin (child : Child) : Except Exn Bool :=
  match child.isDir with
  | .ok true => child.manifest.map Option.isSome
  | other => other

def scanEach : List Child → Except Exn (List Child)
  | [] => .ok []
  | child :: rest => do
    let found ← child.holdsPlugin
    let more ← scanEach rest
    .ok (if found then child :: more else more)

def Root.scan (root : Root) : Except Exn (List Child) :=
  match root.listing with
  | none => .error (.raised .pluginDiscoveryError (root.path ++ lit " is not a directory."))
  | some (.error exc) => .error exc
  | some (.ok listing) => scanEach (sortChildren listing.children)

def Root.manifestFile (root : Root) (manifestFilename : Str) (child : Child) : ManifestFile where
  path := joinPath (joinPath root.path child.name) manifestFilename
  content := child.manifest.toOption.join

section
variable [Printing]

/-- What `load` meets in a directory that was found. -/
def Root.pluginDir (root : Root) (importModule : Importer) (manifestFilename : Str)
    (child : Child) : PluginDir :=
  .ofFile (joinPath root.path child.name) (root.manifestFile manifestFilename child)
    (resolveEntryPoint importModule)

/-- `PluginDiscovery.discover_and_register`. -/
def PluginDiscovery.discoverRoot (discovery : PluginDiscovery) (importModule : Importer)
    (manifestFilename : Str) (root : Root) (registry : PluginRegistry) : DiscoveryOutcome :=
  discovery.discoverAndRegister
    ⟨root.scan.map fun found => found.map (root.pluginDir importModule manifestFilename)⟩ registry

-- ---------------------------------------------------------------------------
-- What a directory installs
-- ---------------------------------------------------------------------------

/-- The kernel is new enough for the manifest. -/
def Compatible (kernelVersion : Str) (manifest : PluginManifest) : Prop :=
  ¬ Unreadable kernelVersion ∧ ∃ required running,
    Denotes manifest.minimumKernelVersion required ∧ Denotes kernelVersion running ∧
      required ≤ running

/-- The file is the manifest of a plugin that this kernel takes, and its entry
point names a factory that makes it. -/
structure Installs (discovery : PluginDiscovery) (importModule : Importer) (file : ManifestFile)
    (plugin : Plugin) : Prop where
  installed : ∃ manifest entryPoint, readManifestFile file = .ok (manifest, entryPoint) ∧
    NamesFactory importModule entryPoint (.ok plugin) ∧
    Compatible discovery.loader.kernelVersion manifest ∧ plugin.metadata.id = manifest.id

structure Relisted (root root' : Root) : Prop where
  path : root'.path = root.path
  listing : ∃ listing listing' : Listing, root.listing = some (.ok listing) ∧
    root'.listing = some (.ok listing') ∧ listing'.children.Perm listing.children

/-- What a scan that returns has found: the directories with a manifest file, by
name. -/
structure FoundIn (listing : Listing) (found : List Child) : Prop where
  ordered : found.Pairwise fun a b => a.name < b.name
  mem : ∀ child, child ∈ found ↔ child ∈ listing.children ∧ child.isDir = .ok true ∧
    ∃ content, child.manifest = .ok (some content)

-- ---------------------------------------------------------------------------
-- Scanning
-- ---------------------------------------------------------------------------

omit [Printing] in
theorem sortChildren_pairwise (children : List Child) :
    (sortChildren children).Pairwise fun a b => a.name ≤ b.name := by
  have htotal : Std.Total fun a b : Child => a.name ≤ b.name := ⟨fun a b => le_total a.name b.name⟩
  have htrans : IsTrans Child fun a b => a.name ≤ b.name := ⟨fun _ _ _ => le_trans⟩
  exact List.pairwise_insertionSort _ children

omit [Printing] in
theorem sortChildren_perm (children : List Child) : (sortChildren children).Perm children :=
  List.perm_insertionSort _ children

omit [Printing] in
theorem sortChildren_eq {children others : List Child} (hperm : others.Perm children)
    (hn : (children.map Child.name).Nodup) : sortChildren others = sortChildren children := by
  refine List.Perm.eq_of_pairwise (fun a b ha hb hab hba => ?_) (sortChildren_pairwise others)
    (sortChildren_pairwise children)
    (((sortChildren_perm others).trans hperm).trans (sortChildren_perm children).symm)
  exact List.inj_on_of_nodup_map hn
    (hperm.subset ((sortChildren_perm others).subset ha)) ((sortChildren_perm children).subset hb)
    (le_antisymm hab hba)

omit [Printing] in
theorem holdsPlugin_true {child : Child} : child.holdsPlugin = .ok true ↔
    child.isDir = .ok true ∧ ∃ content, child.manifest = .ok (some content) := by
  unfold Child.holdsPlugin
  rcases child.isDir with exc | isDir
  · simp
  · cases isDir with
    | false => simp
    | true =>
      rcases child.manifest with exc | content
      · simp [Except.map]
      · cases content <;> simp [Except.map]

omit [Printing] in
theorem scanEach_spec {children found : List Child} (h : scanEach children = .ok found) :
    found.Sublist children ∧
      ∀ child, child ∈ found ↔ child ∈ children ∧ child.holdsPlugin = .ok true := by
  induction children generalizing found with
  | nil =>
    cases h
    simp
  | cons child rest ih =>
    obtain ⟨holds, hholds, h⟩ := bind_eq_ok.mp h
    obtain ⟨more, hmore, h⟩ := bind_eq_ok.mp h
    obtain ⟨hsub, hmem⟩ := ih hmore
    cases holds with
    | true =>
      cases h
      refine ⟨hsub.cons_cons child, fun other => ?_⟩
      simp only [if_true, List.mem_cons, hmem]
      constructor
      · rintro (rfl | ⟨hother, hgood⟩)
        · exact ⟨.inl rfl, hholds⟩
        · exact ⟨.inr hother, hgood⟩
      · rintro ⟨rfl | hother, hgood⟩
        · exact .inl rfl
        · exact .inr ⟨hother, hgood⟩
    | false =>
      cases h
      refine ⟨hsub.cons child, fun other => ?_⟩
      simp only [Bool.false_eq_true, if_false, List.mem_cons, hmem]
      constructor
      · exact fun hother => ⟨.inr hother.1, hother.2⟩
      · rintro ⟨rfl | hother, hgood⟩
        · rw [hholds] at hgood
          cases hgood
        · exact ⟨hother, hgood⟩

omit [Printing] in
theorem scan_foundIn {root : Root} {listing : Listing} {found : List Child}
    (hlisting : root.listing = some (.ok listing)) (h : root.scan = .ok found) :
    FoundIn listing found := by
  unfold Root.scan at h
  rw [hlisting] at h
  obtain ⟨hsub, hmem⟩ := scanEach_spec h
  have hnames : (sortChildren listing.children).Pairwise fun a b => a.name ≠ b.name :=
    List.pairwise_map.mp
      (((sortChildren_perm listing.children).map Child.name).nodup_iff.mpr listing.nodup)
  refine ⟨?_, fun child => ?_⟩
  · exact (((sortChildren_pairwise listing.children).and hnames).sublist hsub).imp
      fun hab => lt_of_le_of_ne hab.1 hab.2
  · rw [hmem, (sortChildren_perm listing.children).mem_iff, holdsPlugin_true]

omit [Printing] in
theorem Relisted.scan {root root' : Root} (h : Relisted root root') : root'.scan = root.scan := by
  obtain ⟨listing, listing', hlisting, hlisting', hperm⟩ := h.listing
  unfold Root.scan
  rw [hlisting, hlisting']
  simp only
  rw [sortChildren_eq hperm listing.nodup]

-- ---------------------------------------------------------------------------
-- Loading
-- ---------------------------------------------------------------------------

section
variable {discovery : PluginDiscovery} {importModule : Importer}

theorem checkCompatibility_eq_ok {loader : PluginLoader} {manifest : PluginManifest} :
    loader.checkCompatibility manifest = .ok () ↔ Compatible loader.kernelVersion manifest := by
  obtain ⟨minimum, hminimum, hread⟩ := manifest.minimum_ok
  have hgate (running : Version) : (if running < minimum then
      .error (.raised .pluginLoadError
        (lit "Plugin " ++ pyRepr manifest.id ++ lit " requires kernel >= " ++
          manifest.minimumKernelVersion ++ lit ", but the running kernel is " ++
          loader.kernelVersion ++ lit "."))
      else .ok () : Except Exn Unit) = .ok () ↔ minimum ≤ running := by
    split
    · rename_i hlt
      exact iff_of_false nofun (not_le.mpr hlt)
    · rename_i hle
      exact iff_of_true rfl (not_lt.mp hle)
  unfold PluginLoader.checkCompatibility
  rw [parseVersion_minimum _ hminimum]
  simp only [bind_eq_ok, Except.ok.injEq, exists_eq_left', parseVersion_eq_ok, hgate]
  constructor
  · rintro ⟨running, ⟨hrunning, hreadable⟩, hle⟩
    exact ⟨hreadable, minimum, running, hminimum, hrunning, hle⟩
  · rintro ⟨hreadable, required, running, hrequired, hrunning, hle⟩
    obtain rfl : required = minimum := Except.ok.inj
      ((parseVersion_minimum "" hrequired).symm.trans (parseVersion_minimum "" hminimum))
    exact ⟨running, ⟨hrunning, hreadable⟩, hle⟩

theorem loader_eq_ok {loader : PluginLoader} {manifest : PluginManifest}
    {factory : Except Exn Plugin} {plugin : Plugin} :
    (loader.load manifest factory).1 = .ok plugin ↔
      Compatible loader.kernelVersion manifest ∧ factory = .ok plugin ∧
        plugin.metadata.id = manifest.id := by
  rw [← checkCompatibility_eq_ok, ← takePlugin_eq_ok]
  unfold PluginLoader.load
  cases loader.checkCompatibility manifest with
  | error exc => simp
  | ok _ => simp

theorem load_eq_ok_iff {path : Str} {file : ManifestFile} {plugin : Plugin} :
    (discovery.load (.ofFile path file (resolveEntryPoint importModule))).1 = .ok plugin ↔
      Installs discovery importModule file plugin := by
  unfold PluginDiscovery.load
  simp only [PluginDir.ofFile]
  cases hread : readManifestFile file with
  | error exc =>
    refine iff_of_false nofun fun h => ?_
    obtain ⟨manifest, entryPoint, hmanifest, -⟩ := h.installed
    cases hread.symm.trans hmanifest
  | ok declared =>
    obtain ⟨manifest, entryPoint⟩ := declared
    simp only
    constructor
    · intro h
      split at h
      · cases h
      · rename_i factory hresolve
        obtain ⟨hcompatible, rfl, hid⟩ := loader_eq_ok.mp h
        exact ⟨manifest, entryPoint, hread, resolveEntryPoint_eq_ok.mp hresolve, hcompatible, hid⟩
    · rintro ⟨manifest', entryPoint', hmanifest, hnames, hcompatible, hid⟩
      obtain ⟨rfl, rfl⟩ := Prod.mk.inj (Except.ok.inj (hread.symm.trans hmanifest))
      rw [resolveEntryPoint_eq_ok.mpr hnames]
      exact loader_eq_ok.mpr ⟨hcompatible, rfl, hid⟩

end

-- ---------------------------------------------------------------------------
-- From the root to the registry
-- ---------------------------------------------------------------------------

structure RootLaw (discovery : PluginDiscovery) (importModule : Importer) (manifestFilename : Str)
    (root : Root) (registry : PluginRegistry) (outcome : DiscoveryOutcome) : Prop where
  relisted : ∀ root', Relisted root root' →
    discovery.discoverRoot importModule manifestFilename root' registry = outcome
  unscanned : ∀ exc, root.scan = .error exc → outcome = ⟨.error exc, registry, []⟩
  scanned : ∀ listing found, root.listing = some (.ok listing) → root.scan = .ok found →
    FoundIn listing found
  returns : ∀ found plugins, root.scan = .ok found → (outcome.result = .ok plugins ↔
    List.Forall₂ (fun child plugin =>
      Installs discovery importModule (root.manifestFile manifestFilename child) plugin) found
      plugins ∧
    (registry.plugins.keys ++ plugins.map fun plugin => plugin.metadata.id).Nodup)
  registered : ∀ plugins, outcome.result = .ok plugins → Registers registry plugins outcome.registry
  kept : ∀ found exc, root.scan = .ok found → outcome.result = .error exc →
    ∃ before child after plugins, found = before ++ child :: after ∧
      List.Forall₂ (fun child plugin =>
        Installs discovery importModule (root.manifestFile manifestFilename child) plugin) before
        plugins ∧
      Registers registry plugins outcome.registry ∧
      FailsAt discovery registry plugins (root.pluginDir importModule manifestFilename child) exc ∧
      ∀ plugin, Installs discovery importModule (root.manifestFile manifestFilename child) plugin →
        plugin.metadata.id ∈ outcome.registry.plugins.keys

section
variable {discovery : PluginDiscovery} {importModule : Importer} {manifestFilename : Str}
  {root : Root} {registry : PluginRegistry} {found : List Child} {plugins : List Plugin}

theorem loads_eq_map_ok :
    discovery.loads (found.map (root.pluginDir importModule manifestFilename)) =
        plugins.map .ok ↔
      List.Forall₂ (fun child plugin =>
        Installs discovery importModule (root.manifestFile manifestFilename child) plugin) found
        plugins := by
  have hload : (fun child plugin => (discovery.load
        (root.pluginDir importModule manifestFilename child)).1 = .ok plugin) =
      fun child plugin =>
        Installs discovery importModule (root.manifestFile manifestFilename child) plugin :=
    funext₂ fun child plugin => propext load_eq_ok_iff
  rw [PluginDiscovery.loads, List.map_map, ← List.forall₂_eq_eq_eq, List.forall₂_map_left_iff,
    List.forall₂_map_right_iff, ← hload]
  rfl

theorem registrable_iff_installs :
    Registrable registry
        (discovery.loads (found.map (root.pluginDir importModule manifestFilename))) plugins ↔
      List.Forall₂ (fun child plugin =>
        Installs discovery importModule (root.manifestFile manifestFilename child) plugin) found
        plugins ∧
      (registry.plugins.keys ++ plugins.map fun plugin => plugin.metadata.id).Nodup := by
  rw [← loads_eq_map_ok]
  exact ⟨fun h => ⟨h.loads, h.free⟩, fun h => ⟨h.1, h.2⟩⟩

theorem discoverRoot_scanned (hscan : root.scan = .ok found) :
    discovery.discoverRoot importModule manifestFilename root registry =
      discovery.discoverEach (found.map (root.pluginDir importModule manifestFilename)) registry
        [] [] := by
  unfold PluginDiscovery.discoverRoot
  rw [hscan]
  rfl

theorem discoverRoot_cases (hscan : root.scan = .ok found) :
    (∃ plugins changed, List.Forall₂ (fun child plugin =>
          Installs discovery importModule (root.manifestFile manifestFilename child) plugin) found
          plugins ∧
        (registry.plugins.keys ++ plugins.map fun plugin => plugin.metadata.id).Nodup ∧
        Registers registry plugins changed ∧
        (discovery.discoverRoot importModule manifestFilename root registry).result = .ok plugins ∧
        (discovery.discoverRoot importModule manifestFilename root registry).registry = changed) ∨
      ∃ before child after plugins exc changed, found = before ++ child :: after ∧
        List.Forall₂ (fun child plugin =>
          Installs discovery importModule (root.manifestFile manifestFilename child) plugin) before
          plugins ∧
        Registers registry plugins changed ∧
        FailsAt discovery registry plugins (root.pluginDir importModule manifestFilename child) exc ∧
        (discovery.discoverRoot importModule manifestFilename root registry).result = .error exc ∧
        (discovery.discoverRoot importModule manifestFilename root registry).registry = changed := by
  rw [discoverRoot_scanned hscan]
  rcases registrable_or_failsAt discovery
      (found.map (root.pluginDir importModule manifestFilename)) registry with
    ⟨plugins, h⟩ | ⟨before, pluginDir, after, plugins, exc, hfound, h, hfails⟩
  · obtain ⟨hinstalls, hfree⟩ := registrable_iff_installs.mp h
    obtain ⟨changed, hchanged, hrun⟩ := discoverEach_append discovery h [] [] []
    rw [List.append_nil] at hrun
    rw [hrun]
    exact .inl ⟨plugins, changed, hinstalls, hfree, hchanged, rfl, rfl⟩
  · obtain ⟨children, others, rfl, rfl, hothers⟩ := List.map_eq_append_iff.mp hfound
    obtain ⟨child, rest, rfl, rfl, rfl⟩ := List.map_eq_cons_iff.mp hothers
    obtain ⟨changed, hchanged, hrun⟩ := discoverEach_append discovery h
      (root.pluginDir importModule manifestFilename child ::
        rest.map (root.pluginDir importModule manifestFilename)) [] []
    rw [hfound, hrun, discoverEach_failsAt discovery hfails hchanged]
    exact .inr ⟨children, child, rest, plugins, exc, changed, rfl,
      (registrable_iff_installs.mp h).1, hchanged, hfails, rfl, rfl⟩

/-- The directory that stops a run installs no plugin, or one whose id is taken. -/
theorem FailsAt.taken_of_installs {changed : PluginRegistry} {child : Child} {exc : Exn}
    {plugin : Plugin}
    (h : FailsAt discovery registry plugins (root.pluginDir importModule manifestFilename child) exc)
    (hchanged : Registers registry plugins changed)
    (hinstalls : Installs discovery importModule (root.manifestFile manifestFilename child) plugin) :
    plugin.metadata.id ∈ changed.plugins.keys := by
  have hload : (discovery.load (root.pluginDir importModule manifestFilename child)).1 = .ok plugin :=
    load_eq_ok_iff.mpr hinstalls
  cases h with
  | load h => cases h.symm.trans hload
  | taken h htaken =>
    cases h.symm.trans hload
    exact hchanged.mem_keys.mpr htaken

end

theorem discoverRoot_law (discovery : PluginDiscovery) (importModule : Importer)
    (manifestFilename : Str) (root : Root) (registry : PluginRegistry) :
    RootLaw discovery importModule manifestFilename root registry
      (discovery.discoverRoot importModule manifestFilename root registry) where
  relisted root' h := by
    unfold PluginDiscovery.discoverRoot
    rw [h.scan]
    unfold Root.pluginDir Root.manifestFile
    rw [h.path]
  unscanned exc hscan := by
    unfold PluginDiscovery.discoverRoot
    rw [hscan]
    rfl
  scanned listing found hlisting hscan := scan_foundIn hlisting hscan
  returns found plugins hscan := by
    rw [← registrable_iff_installs]
    constructor
    · intro hresult
      rcases discoverRoot_cases hscan with
        ⟨plugins', changed, hinstalls, hfree, -, hrun, -⟩ | ⟨_, _, _, _, exc, _, _, _, _, _, hrun, _⟩
      · cases hresult.symm.trans hrun
        exact registrable_iff_installs.mpr ⟨hinstalls, hfree⟩
      · cases hresult.symm.trans hrun
    · intro h
      obtain ⟨changed, -, hrun⟩ := discoverEach_append discovery h [] [] []
      rw [List.append_nil] at hrun
      rw [discoverRoot_scanned hscan, hrun]
      rfl
  registered plugins hresult := by
    cases hscan : root.scan with
    | error exc =>
      unfold PluginDiscovery.discoverRoot at hresult
      rw [hscan] at hresult
      cases hresult
    | ok found =>
      rcases discoverRoot_cases hscan with
        ⟨plugins', changed, _, _, hchanged, hrun, rfl⟩ | ⟨_, _, _, _, exc, _, _, _, _, _, hrun, _⟩
      · cases hresult.symm.trans hrun
        exact hchanged
      · cases hresult.symm.trans hrun
  kept found exc hscan hresult := by
    rcases discoverRoot_cases hscan with
      ⟨plugins, _, _, _, _, hrun, _⟩ |
      ⟨before, child, after, plugins, exc', changed, hfound, hinstalls, hchanged, hfails, hrun, rfl⟩
    · cases hresult.symm.trans hrun
    · cases hresult.symm.trans hrun
      exact ⟨before, child, after, plugins, hfound, hinstalls, hchanged, hfails,
        fun plugin h => hfails.taken_of_installs hchanged h⟩

end

end MellivorKernel
