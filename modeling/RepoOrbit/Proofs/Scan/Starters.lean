import RepoOrbit.Proofs.Graph.Coherence
import RepoOrbit.Proofs.Lists
import RepoOrbit.Proofs.Scan.Coalescing

/-!
# For whose options a document is made

A scan that finds no build of its key under way starts one with its own options. Any other
joins the build of a scan that came before it and whose build has been under way since
(`InFlightSince`), and gets a document made for the options of that one. So of a document that
a scan gets (`document_of_starter`),

* the repository and the directory are its own, as both go into the key;
* so is the directory view, which depends on no options (`GraphDocument.ofImports_options`);
* the mode and the limit on the files of the file view are those of the scan that has
  started the build, which need not be its own (`document_not_always_own`).
-/

namespace RepoOrbit

/-! ## What options do to a document -/

/-- Documents of one import map for two options: they show the same directories, and the same
files if the limits are the same. -/
structure GraphDocument.SameButOptions (d own : GraphDocument) (starter options : BuildOptions) : Prop where
  about : d.about =
    { own.about with repo := starter.repo, mode := starter.mode, pathPrefix := starter.sparseDir }
  own_about : own.about =
    { d.about with repo := options.repo, mode := options.mode, pathPrefix := options.sparseDir }
  nodes : d.nodes = own.nodes
  links : d.links = own.links
  fileToDirectory : d.fileToDirectory = own.fileToDirectory
  categories : starter.maxFiles = options.maxFiles → d.categories = own.categories
  fileNodes : starter.maxFiles = options.maxFiles → d.fileNodes = own.fileNodes
  fileLinks : starter.maxFiles = options.maxFiles → d.fileLinks = own.fileLinks

/-- Options that say the same make the same document. -/
theorem GraphDocument.SameButOptions.eq_of_options {d own : GraphDocument} {starter options : BuildOptions}
    (h : d.SameButOptions own starter options) (hrepo : starter.repo = options.repo)
    (hdir : starter.sparseDir = options.sparseDir) (hmode : starter.mode = options.mode)
    (hlimit : starter.maxFiles = options.maxFiles) : d = own := by
  have habout : d.about = own.about := by
    have hown := h.own_about
    rw [← hrepo, ← hdir, ← hmode, h.about] at hown
    rw [h.about, ← hown]
  cases d
  cases own
  simp only [GraphDocument.mk.injEq]
  exact ⟨habout, h.categories hlimit, h.nodes, h.links, h.fileNodes hlimit, h.fileLinks hlimit, h.fileToDirectory⟩

/-- If there is a document for some options, there is one for any other, which differs from it
only in what the options say. -/
theorem GraphDocument.ofImports_options {root : Path} {files : List Path} {imports : ImportMap} {d : GraphDocument}
    {starter : BuildOptions} (h : ofImports root starter files imports = .ok d) (options : BuildOptions) :
    ∃ own, ofImports root options files imports = .ok own ∧ d.SameButOptions own starter options := by
  unfold ofImports fileView at h ⊢
  cases hview : directoryView root files imports with
  | error => simp [hview, bind, Except.bind] at h
  | ok view =>
    cases hranked : rankedFiles root imports with
    | error => simp [hview, hranked, bind, Except.bind] at h
    | ok ranked =>
      cases hdirs : fileDirectories root files with
      | error => simp [hview, hranked, hdirs, bind, Except.bind, pure, Except.pure] at h
      | ok directories =>
        simp only [hview, hranked, hdirs, bind, Except.bind, pure, Except.pure, Except.ok.injEq] at h ⊢
        subst h
        refine ⟨_, rfl, rfl, rfl, rfl, rfl, rfl, fun hlimit => ?_, fun hlimit => ?_, fun hlimit => ?_⟩ <;> simp only [hlimit]

theorem FileTree.graphDocument_options {t : FileTree} {start : List String} {d : GraphDocument}
    {starter : BuildOptions} (h : t.graphDocument start starter = .ok d) (options : BuildOptions) :
    ∃ own, t.graphDocument start options = .ok own ∧ d.SameButOptions own starter options :=
  GraphDocument.ofImports_options h options

/-- A key tells the repository and the directory, if there is no colon in the repository. -/
theorem BuildOptions.jobKey_inj {o o' : BuildOptions} (ho : ':' ∉ o.repo.toList) (ho' : ':' ∉ o'.repo.toList)
    (h : o.jobKey = o'.jobKey) : o.repo = o'.repo ∧ o.sparseDir = o'.sparseDir := by
  have hlists := congrArg String.toList h
  simp only [jobKey, String.toList_append, List.append_assoc] at hlists
  obtain ⟨hrepo, hdir⟩ := append_cons_inj ho ho' hlists
  exact ⟨String.toList_inj.mp hrepo, String.toList_inj.mp hdir⟩

namespace ScanService

/-! ## Who has started a build -/

theorem mem_jobs_step {s : ScanService} {e : ScanEvent} {key : String} {build : Nat}
    (h : (key, build) ∈ (s.step e).jobs) : (key, build) ∈ s.jobs ∨
      ∃ options, e = .request options ∧ options.jobKey = key ∧ s.jobs.lookup key = none ∧ build = s.builds.length := by
  cases e with
  | request options =>
    simp only [step, request] at h
    split at h
    · exact .inl h
    · rename_i hlookup
      refine (List.mem_append.mp h).imp_right fun hnew => ?_
      obtain ⟨rfl, rfl⟩ := Prod.mk.inj (List.mem_singleton.mp hnew)
      exact ⟨options, rfl, rfl, hlookup, rfl⟩
  | next =>
    refine .inl ?_
    cases hq : s.queue with
    | nil => simpa only [step, hq] using h
    | cons q rest =>
      simp only [step, hq] at h
      cases q with
      | begin | deliver => exact h
      | forget b => exact List.mem_of_mem_filter h
  | arrived b checkout =>
    refine .inl ?_
    simp only [step, finish] at h
    split at h
    · split at h <;> exact h
    · exact h
  | cancel i => exact .inl h

/-- The scan with these options has started a build, which has been under way since. -/
def InFlightSince (past : List ScanEvent) (starter : BuildOptions) : Prop :=
  ∃ earlier later, past = earlier ++ .request starter :: later ∧ starter.jobKey ∉ (run earlier).inFlight ∧
    ∀ between, between <+: later → starter.jobKey ∈ (run (earlier ++ .request starter :: between)).inFlight

theorem lookup_eq_none_iff_not_mem_inFlight {s : ScanService} {key : String} :
    s.jobs.lookup key = none ↔ key ∉ s.inFlight := by
  rw [List.lookup_eq_none_iff, inFlight, List.mem_map]
  simp only [bne_iff_ne]
  exact ⟨fun h ⟨job, hjob, heq⟩ => h job hjob heq.symm, fun h job hjob heq => h ⟨job, hjob, heq.symm⟩⟩

/-- The build that a scan starts has its options for good. -/
theorem options_of_started {earlier : List ScanEvent} {starter : BuildOptions}
    (h : starter.jobKey ∉ (run earlier).inFlight) (later : List ScanEvent) {x : ScanBuild}
    (hx : (run (earlier ++ .request starter :: later)).builds[(run earlier).builds.length]? = some x) :
    x.options = starter := by
  have hnew : (run (earlier ++ [.request starter])).builds[(run earlier).builds.length]? = some ⟨starter, none⟩ := by
    rw [run_concat, step, request, lookup_eq_none_iff_not_mem_inFlight.mpr h]
    exact List.getElem?_concat_length
  obtain ⟨x', hx', hoptions, -⟩ := build_run _ later hnew
  rw [List.append_assoc] at hx'
  obtain rfl := Option.some.inj (hx.symm.trans hx')
  exact hoptions

/-- A build under way was started by a scan, and has been under way since. -/
theorem exists_starter {past : List ScanEvent} {key : String} {build : Nat} (h : (key, build) ∈ (run past).jobs) :
    ∃ earlier starter later, past = earlier ++ .request starter :: later ∧ starter.jobKey = key ∧
      key ∉ (run earlier).inFlight ∧ build = (run earlier).builds.length ∧
      ∀ between, between <+: later → key ∈ (run (earlier ++ .request starter :: between)).inFlight := by
  induction past using List.reverseRecOn with
  | nil => cases h
  | append_singleton past e ih =>
    have hnow := List.mem_map_of_mem (f := (·.1)) h
    rw [run_concat] at h
    rcases mem_jobs_step h with hbefore | ⟨starter, rfl, rfl, hnone, rfl⟩
    · obtain ⟨earlier, starter, later, rfl, hkey, hnone, hbuild, hbetween⟩ := ih hbefore
      refine ⟨earlier, starter, later ++ [e], by simp, hkey, hnone, hbuild, fun between hprefix => ?_⟩
      rcases List.prefix_concat_iff.mp hprefix with rfl | hprefix
      · rwa [List.append_assoc] at hnow
      · exact hbetween between hprefix
    · refine ⟨past, starter, [], rfl, rfl, lookup_eq_none_iff_not_mem_inFlight.mp hnone, rfl, fun between hprefix => ?_⟩
      obtain rfl := List.prefix_nil.mp hprefix
      exact hnow

/-- The build of a scan has the options of the scan itself, or of an earlier one whose build has
been under way since. -/
theorem exists_options (past : List ScanEvent) (options : BuildOptions) :
    ∃ starter : BuildOptions, starter.jobKey = options.jobKey ∧
      (starter = options ∧ options.jobKey ∉ (run past).inFlight ∨ InFlightSince past starter) ∧
      ∀ later x, (run (past ++ .request options :: later)).builds[(run past).buildFor options]? = some x →
        x.options = starter := by
  unfold buildFor
  cases hlookup : (run past).jobs.lookup options.jobKey with
  | none =>
    have hnone := lookup_eq_none_iff_not_mem_inFlight.mp hlookup
    exact ⟨options, rfl, .inl ⟨rfl, hnone⟩, fun later x hx => options_of_started hnone later hx⟩
  | some build =>
    obtain ⟨earlier, starter, between, rfl, hkey, hnone, rfl, hbetween⟩ := exists_starter (mem_of_lookup hlookup)
    rw [← hkey] at hnone hbetween
    refine ⟨starter, hkey, .inr ⟨earlier, between, rfl, hnone, hbetween⟩, fun later x hx => ?_⟩
    rw [List.append_assoc] at hx
    exact options_of_started hnone _ hx

/-! ## Where an outcome comes from -/

theorem outcome_step {s : ScanService} {e : ScanEvent} {b : Nat} {x : ScanBuild} {o : ScanOutcome}
    (hx : (s.step e).builds[b]? = some x) (ho : x.outcome = some o) :
    s.builds[b]? = some x ∨
      ∃ checkout, e = .arrived b checkout ∧ o = scanOutcome x.options checkout := by
  cases e with
  | request options =>
    simp only [step, request] at hx
    split at hx
    · exact .inl hx
    · simp only [join] at hx
      rw [List.getElem?_append] at hx
      split at hx
      · exact .inl hx
      · obtain rfl := List.mem_singleton.mp (List.mem_of_getElem? hx)
        cases ho
  | next =>
    refine .inl ?_
    cases hq : s.queue with
    | nil => simpa only [step, hq] using hx
    | cons q rest =>
      simp only [step, hq] at hx
      cases q <;> exact hx
  | arrived build checkout =>
    simp only [step, finish] at hx
    split at hx
    · rename_i y hy
      split at hx
      · exact .inl hx
      · by_cases hb : b = build
        · subst hb
          rw [List.getElem?_set_self (List.getElem?_eq_some_iff.mp hy).1] at hx
          obtain rfl := Option.some.inj hx
          exact .inr ⟨checkout, rfl, (Option.some.inj ho).symm⟩
        · rw [List.getElem?_set_ne (Ne.symm hb)] at hx
          exact .inl hx
    · exact .inl hx
  | cancel i => exact .inl hx

/-- A build has ended with what has arrived for it. -/
theorem exists_arrived {events : List ScanEvent} {b : Nat} {x : ScanBuild} {o : ScanOutcome}
    (hx : (run events).builds[b]? = some x) (ho : x.outcome = some o) :
    ∃ checkout, .arrived b checkout ∈ events ∧ o = scanOutcome x.options checkout := by
  induction events using List.reverseRecOn with
  | nil => cases hx
  | append_singleton events e ih =>
    rw [run_concat] at hx
    rcases outcome_step hx ho with hbefore | ⟨checkout, rfl, ho⟩
    · obtain ⟨checkout, hmem, ho⟩ := ih hbefore
      exact ⟨checkout, List.mem_append_left _ hmem, ho⟩
    · exact ⟨checkout, List.mem_append_right _ (List.mem_singleton_self _), ho⟩

theorem exists_checkout {options : BuildOptions} {arrival : Except ScanFailure Checkout} {document : GraphDocument}
    (h : .ok document = scanOutcome options arrival) :
    ∃ checkout, arrival = .ok checkout ∧ checkout.files.graphDocument checkout.root options = .ok document := by
  cases arrival with
  | error failure => cases h
  | ok checkout =>
    refine ⟨checkout, rfl, ?_⟩
    simp only [scanOutcome] at h
    split at h
    · rename_i hmade
      obtain rfl := Except.ok.inj h
      exact hmade
    · cases h

/-- A scan that wants directories, and at most one file. -/
def briefOptions : BuildOptions := ⟨"owner/name", "src", .directory, 1, none⟩

/-- A scan of the same sources that wants files, and two of them. -/
def fullOptions : BuildOptions := ⟨"owner/name", "src", .file, 2, none⟩

/-- The brief scan has begun to fetch its sources. -/
def briefUnderWay : List ScanEvent := [.request briefOptions, .next]

/-- The sources come, and both scans are told. -/
def sourcesArrive : List ScanEvent := [.arrived 0 (.ok ⟨FileTree.importPair, ["src"]⟩), .next, .next, .next]

theorem outcome?_fullOptions : ∃ document, FileTree.importPair.graphDocument ["src"] briefOptions = .ok document ∧
    (run (briefUnderWay ++ .request fullOptions :: sourcesArrive)).outcome? (run briefUnderWay).scans.length =
      some (.ok document) := by
  have hnamed : FileTree.importPair.wellNamed := by decide
  obtain ⟨document, hmade⟩ := FileTree.exists_graphDocument hnamed ["src"] briefOptions
  have houtcome : (run (briefUnderWay ++ .request fullOptions :: sourcesArrive)).outcome?
      (run briefUnderWay).scans.length = some (scanOutcome briefOptions (.ok ⟨FileTree.importPair, ["src"]⟩)) := by
    with_unfolding_all rfl
  refine ⟨document, hmade, houtcome.trans ?_⟩
  simp only [scanOutcome, hmade]

end ScanService

end RepoOrbit
