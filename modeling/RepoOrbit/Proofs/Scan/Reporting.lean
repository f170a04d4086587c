import RepoOrbit.Proofs.Scan.Coalescing
import RepoOrbit.Proofs.Text.Redaction

/-!
# What scans hear of a failure

A build fails with what its fetch has failed with, or because no graph could be made of
what was fetched (`buildFailure?`). `failed_build_reported` says what the scans of that
build hear of it, whatever has failed and whatever was said of it: one error for all of
them, of the same kind (`SameKind`), in which neither the token of the build nor anything
that looks like a credential is left (`GivesNothingAway`).
-/

namespace RepoOrbit

namespace Text

theorem isClean_redact (text : String) (secrets : List String) : IsClean (redact text secrets).toList := by
  rw [redact, String.toList_ofList]
  exact isClean_maskShapes _

/-- A message in which neither the token nor anything that looks like a credential is
left, masked passwords apart. -/
structure GivesNothingAway (token : Option String) (message : List Char) : Prop where
  token : ∀ t, token = some t → t ≠ "" → '*' ∉ t.toList → ¬ t.toList <:+: message
  short : ¬ HasToken ["gho_", "ghp_", "ghs_", "ghu_", "ghr_"] message
  long : ¬ HasToken ["github_pat_"] message
  users : OnlyMaskedUsers message

theorem givesNothingAway_redact (text : String) (token : Option String) :
    GivesNothingAway token (redact text token.toList).toList := by
  have hclean := isClean_redact text token.toList
  refine ⟨fun t ht hne hstar => ?_, not_hasToken_of_freeOf hclean.short, not_hasToken_of_freeOf hclean.long,
    hclean.users⟩
  have hmem : t ∈ token.toList := by simp [ht]
  exact not_infix_redact hmem hne hstar text

end Text

/-- An error is of the kind of a failure: fetch errors keep their kind, and everything
else is a build error. -/
inductive SameKind : ScanFailure → ScanError → Prop
  | fetch {raised reported : FetchError} : reported.kind = raised.kind → SameKind (.fetch raised) (.fetch reported)
  | build {kind text message : String} : SameKind (.other kind text) (.build message)

theorem sameKind_toError (token : Option String) (failure : ScanFailure) :
    SameKind failure (failure.toError token) := by
  cases failure with
  | fetch error => exact .fetch rfl
  | other kind text => exact .build

theorem givesNothingAway_toError (token : Option String) (failure : ScanFailure) :
    Text.GivesNothingAway token (failure.toError token).message.toList := by
  cases failure with
  | fetch error => exact Text.givesNothingAway_redact error.message token
  | other kind text => exact Text.givesNothingAway_redact _ token

/-- Why a build fails: its fetch did, or no graph can be made. -/
def buildFailure? (options : BuildOptions) : Except ScanFailure Checkout → Option ScanFailure
  | .error failure => some failure
  | .ok checkout =>
    match checkout.files.graphDocument checkout.root options with
    | .ok _ => none
    | .error fault => some (.other "failure" fault.message)

theorem scanOutcome_of_failure {options : BuildOptions} {checkout : Except ScanFailure Checkout}
    {failure : ScanFailure} (h : buildFailure? options checkout = some failure) :
    scanOutcome options checkout = .error (failure.toError options.token) := by
  cases checkout with
  | error raised =>
    obtain rfl := Option.some.inj h
    rfl
  | ok found =>
    simp only [buildFailure?] at h
    simp only [scanOutcome]
    cases hgraph : found.files.graphDocument found.root options with
    | ok document => simp [hgraph] at h
    | error fault =>
      simp only [hgraph, Option.some.injEq] at h
      rw [← h]

namespace ScanService

/-- A build that is under way ends with what arrives first, for good. -/
theorem outcome_of_arrived (before after : List ScanEvent) {build : Nat} {b : ScanBuild}
    (checkout : Except ScanFailure Checkout) (hb : (run before).builds[build]? = some b) (hopen : b.outcome = none) :
    ∃ x, (run (before ++ .arrived build checkout :: after)).builds[build]? = some x ∧
      x.outcome = some (scanOutcome b.options checkout) := by
  have hlt := (List.getElem?_eq_some_iff.mp hb).1
  have hended : (run (before ++ [.arrived build checkout])).builds[build]? =
      some { b with outcome := some (scanOutcome b.options checkout) } := by
    rw [run_concat, step, finish]
    simp only [hb, hopen]
    exact List.getElem?_set_self hlt
  obtain ⟨x, hx, -, houtcome⟩ := build_run _ after hended
  rw [List.append_assoc] at hx
  exact ⟨x, hx, houtcome rfl⟩

/-- The scans of a build that has ended get its outcome and nothing else. -/
theorem outcome?_of_ended {s : ScanService} (h : s.Accounted) {i : Nat} {w : Scan} {x : ScanBuild} {o : ScanOutcome}
    (hw : s.scans[i]? = some w) (hx : s.builds[w.build]? = some x) (ho : x.outcome = some o) :
    (s.queue = [] → w.state ≠ .cancelled → s.outcome? i = some o) ∧ ∀ o', s.outcome? i = some o' → o' = o := by
  constructor
  · intro hq hs
    obtain ⟨x', hx', -, hdeliver⟩ := h.scan hw
    obtain rfl := Option.some.inj (hx.symm.trans hx')
    have hreceived : w.state = .received := by
      cases hstate : w.state with
      | received => rfl
      | cancelled => exact absurd hstate hs
      | waiting =>
        have hm := hdeliver hstate (by rw [ho]; rfl)
        rw [hq] at hm
        cases hm
    exact (outcome?_of_received hw hreceived hx).trans ho
  · intro o' ho'
    have hreceived := received_of_outcome? hw ho'
    have heq := (outcome?_of_received hw hreceived hx).symm.trans ho'
    exact Option.some.inj (heq.symm.trans ho)

/-- All scans of a build that fails hear of one error, which is of the same kind and
gives nothing away. -/
theorem failed_build_reported {before after : List ScanEvent} {build : Nat} {b : ScanBuild}
    {checkout : Except ScanFailure Checkout} {failure : ScanFailure} (hb : (run before).builds[build]? = some b)
    (hopen : b.outcome = none) (hfailure : buildFailure? b.options checkout = some failure) :
    ∃ error, SameKind failure error ∧ Text.GivesNothingAway b.options.token error.message.toList ∧
      ∀ (i : Nat) (w : Scan), (run (before ++ .arrived build checkout :: after)).scans[i]? = some w → w.build = build →
        ((run (before ++ .arrived build checkout :: after)).queue = [] → w.state ≠ .cancelled →
          (run (before ++ .arrived build checkout :: after)).outcome? i = some (.error error)) ∧
        ∀ o, (run (before ++ .arrived build checkout :: after)).outcome? i = some o → o = .error error := by
  refine ⟨failure.toError b.options.token, sameKind_toError _ _, givesNothingAway_toError _ _, fun i w hw hbuild => ?_⟩
  obtain ⟨x, hx, houtcome⟩ := outcome_of_arrived before after checkout hb hopen
  rw [scanOutcome_of_failure hfailure] at houtcome
  subst hbuild
  exact outcome?_of_ended (Accounted.of_run _) hw hx houtcome

/-- Two scans wait for a build when its fetch takes too long. What is said of that holds
the token of the build, once by itself and once as a password. -/
def twoWaiting : List ScanEvent :=
  [.request ⟨"o/r", "src", .directory, 200, some "s3cr3t"⟩, .request ⟨"o/r", "src", .directory, 200, none⟩, .next]

theorem failed_build_reported_twoWaiting :
    let late : ScanFailure := .fetch ⟨.timedOut, "s3cr3tghp_a x-access-token:s3cr3t@host"⟩
    let events := twoWaiting ++ [.arrived 0 (.error late), .next, .next, .next]
    let b : ScanBuild := ⟨⟨"o/r", "src", .directory, 200, some "s3cr3t"⟩, none⟩
    ((run twoWaiting).builds[0]? = some b ∧ b.outcome = none ∧ buildFailure? b.options (.error late) = some late) ∧
      ∃ error, SameKind late error ∧ Text.GivesNothingAway (some "s3cr3t") error.message.toList ∧
        (run events).outcome? 0 = some (.error error) ∧ (run events).outcome? 1 = some (.error error) := by
  intro late events b
  have hb : (run twoWaiting).builds[0]? = some b := by with_unfolding_all rfl
  obtain ⟨error, hkind, hsafe, hscans⟩ :=
    @failed_build_reported twoWaiting [.next, .next, .next] 0 b (.error late) late hb rfl rfl
  have htold : ∀ i ∈ [0, 1], (run events).scans[i]? = some ⟨0, .received⟩ := by decide +kernel
  have hq : (run events).queue = [] := by decide +kernel
  refine ⟨⟨hb, rfl, rfl⟩, error, hkind, hsafe, ?_, ?_⟩
  · exact (hscans 0 _ (htold 0 (by decide)) rfl).1 hq nofun
  · exact (hscans 1 _ (htold 1 (by decide)) rfl).1 hq nofun

end ScanService

end RepoOrbit
