import RepoOrbit.Proofs.Text.Credentials

/-!
# Nothing shows through a redaction

A redaction goes over a text several times: for each given secret, for passwords and
for two kinds of tokens. What one pass has taken out does not come back in a later
one, because a stretch without a star that stands in the result was there before:

* `not_infix_redact`: no secret without a star is left;
* `redact_eq_empty_iff`: something is left of every text but the empty one;
* `isClean_maskShapes`: nothing that looks like a credential is left.

`redact_complete` puts this together. As nothing is left to mask, redacting a second
time changes nothing.
-/

namespace RepoOrbit.Text

/-! ## Given secrets -/

theorem literal_eq_some_iff {secret t : List Char} {before : Option Char} {n : Nat} :
    literal secret before t = some n ↔ secret <+: t ∧ n = secret.length := by
  unfold literal
  rw [Option.ite_none_right_eq_some, List.isPrefixOf_iff_prefix, Option.some.injEq, eq_comm (a := n)]

theorem literal_fits (secret : List Char) : (literal secret).Fits := by
  intro before t n h
  obtain ⟨hbegins, rfl⟩ := literal_eq_some_iff.mp h
  exact hbegins.length_le

theorem masked_literal {secret : List Char} {before : Option Char} {t o : List Char}
    (h : Substituted (literal secret) mask before t o) : Masked (fun _ => True) t o :=
  h.masked fun _ _ _ _ _ _ => trivial

theorem infix_of_infix_mask_append {w o : List Char} (hw : '*' ∉ w) (h : w <:+: mask ++ o) : w <:+: o := by
  cases w with
  | nil => exact List.nil_infix
  | cons c w =>
    obtain ⟨u, v, h⟩ := h
    rw [List.append_assoc, List.cons_append] at h
    obtain ⟨u', -, rfl⟩ := Masked.append_eq_mask_append (star_not_mem_cons hw).1 h
    exact ⟨u', v, by simp⟩

/-- A secret without a star does not stand in a text in which it has been replaced. -/
theorem not_infix_of_substituted {secret : List Char} (hne : secret ≠ []) (hstar : '*' ∉ secret)
    {before : Option Char} {t o : List Char} (h : Substituted (literal secret) mask before t o) :
    ¬ secret <:+: o := by
  induction h with
  | done => exact fun hi => hne (List.infix_nil.mp hi)
  | @keep before c t o hnone h ih =>
    intro hi
    rcases List.infix_cons_iff.mp hi with ⟨v, hv⟩ | hi
    · have hmasked := masked_literal (.keep hnone h)
      rw [← hv] at hmasked
      obtain ⟨t', ht, -⟩ := hmasked.split_prefix hstar
      obtain ⟨d, secret, rfl⟩ := List.exists_cons_of_ne_nil hne
      exact hnone secret.length (literal_eq_some_iff.mpr ⟨⟨t', ht.symm⟩, rfl⟩)
    · exact ih hi
  | replace _ _ _ ih => exact fun hi => ih (infix_of_infix_mask_append hstar hi)

/-- What stands in a text without its secrets, and has no star in it, stood there before. -/
theorem infix_of_infix_maskSecrets {w : List Char} (hw : '*' ∉ w) (secrets : List String) {t : List Char}
    (h : w <:+: maskSecrets secrets t) : w <:+: t := by
  induction secrets generalizing t with
  | nil => exact h
  | cons s secrets ih =>
    have hone := substituteFrom_substituted (literal_fits s.toList) mask none t
    exact (masked_literal hone).infix_in_text hw (ih h)

theorem not_infix_maskSecrets {secrets : List String} {s : String} (hs : s ∈ secrets) (hne : s.toList ≠ [])
    (hstar : '*' ∉ s.toList) (t : List Char) : ¬ s.toList <:+: maskSecrets secrets t := by
  induction secrets generalizing t with
  | nil => cases hs
  | cons s' secrets ih =>
    rcases List.mem_cons.mp hs with rfl | hs
    · have hone := substituteFrom_substituted (literal_fits s.toList) mask none t
      exact fun hi => not_infix_of_substituted hne hstar hone (infix_of_infix_maskSecrets hstar secrets hi)
    · exact ih hs _

theorem freeOf_literal {secret : List Char} (before : Option Char) {t : List Char}
    (h : secret ≠ [] → ¬ secret <:+: t) : FreeOf (literal secret) before t := by
  induction t generalizing before with
  | nil => trivial
  | cons c t ih =>
    refine ⟨fun n hn => ?_, ih _ fun hne hi => h hne (List.infix_cons_iff.mpr (.inr hi))⟩
    obtain ⟨hbegins, hlength⟩ := literal_eq_some_iff.mp hn
    exact h (List.ne_nil_of_length_eq_add_one hlength.symm) hbegins.isInfix

/-- A text without any of the secrets stays as it is. -/
theorem maskSecrets_of_not_infix {secrets : List String} {t : List Char}
    (h : ∀ s ∈ secrets, s.toList ≠ [] → ¬ s.toList <:+: t) : maskSecrets secrets t = t := by
  induction secrets with
  | nil => rfl
  | cons s secrets ih =>
    have hone := substituteFrom_substituted (literal_fits s.toList) mask none t
    have hsame : substitute (literal s.toList) mask t = t :=
      hone.eq_of_freeOf (freeOf_literal none (h s List.mem_cons_self))
    rw [maskSecrets, List.foldl_cons, hsame]
    exact ih fun s' hs' => h s' (List.mem_cons_of_mem s hs')

/-! ## Everything together -/

/-- Nothing that looks like a credential is left but masked passwords. -/
structure IsClean (t : List Char) : Prop where
  short : FreeOf (tokenWith shortBeginnings) none t
  long : FreeOf (tokenWith longBeginnings) none t
  users : OnlyMaskedUsers t

/-- The three passes over a text, one after the other. -/
theorem maskShapes_passes (t : List Char) :
    ∃ t₁ t₂, Substituted userWithPassword maskedUser none t t₁ ∧
      Substituted (tokenWith shortBeginnings) mask none t₁ t₂ ∧
      Substituted (tokenWith longBeginnings) mask none t₂ (maskShapes t) :=
  ⟨_, _, substituteFrom_substituted userWithPassword_fits maskedUser none t,
    substituteFrom_substituted tokenWith_fits mask none _, substituteFrom_substituted tokenWith_fits mask none _⟩

theorem isClean_maskShapes (t : List Char) : IsClean (maskShapes t) := by
  obtain ⟨t₁, t₂, husers, hshort, hlong⟩ := maskShapes_passes t
  have hkind : ∀ c, isTokenChar c = true → c ≠ '@' ∧ isWhite c = false := fun c => ne_sign_of_isTokenChar
  refine ⟨?_, ?_, ?_⟩
  · exact freeOf_tokenWith tokenBeginnings_long tokenBeginnings_short hlong
      (.inr (freeOf_tokenWith tokenBeginnings_short tokenBeginnings_short hshort (.inl rfl)))
  · exact freeOf_tokenWith tokenBeginnings_long tokenBeginnings_long hlong (.inl rfl)
  · have hmasked := (masked_tokenWith tokenBeginnings_short hshort).onlyMaskedUsers hkind (by decide)
      (onlyMaskedUsers_substituted husers)
    exact (masked_tokenWith tokenBeginnings_long hlong).onlyMaskedUsers hkind (by decide) hmasked

theorem infix_of_infix_maskShapes {w t : List Char} (hw : '*' ∉ w) (h : w <:+: maskShapes t) : w <:+: t := by
  obtain ⟨t₁, t₂, husers, hshort, hlong⟩ := maskShapes_passes t
  exact (masked_userWithPassword husers).infix_in_text hw
    ((masked_tokenWith tokenBeginnings_short hshort).infix_in_text hw
      ((masked_tokenWith tokenBeginnings_long hlong).infix_in_text hw h))

theorem IsClean.maskShapes_eq {t : List Char} (h : IsClean t) : maskShapes t = t := by
  obtain ⟨t₁, t₂, husers, hshort, hlong⟩ := maskShapes_passes t
  obtain rfl := husers.eq_of_onlyMaskedUsers h.users
  obtain rfl := hshort.eq_of_freeOf h.short
  exact hlong.eq_of_freeOf h.long

/-- No secret without a star is left in a redacted text. -/
theorem not_infix_redact {secrets : List String} {s : String} (hs : s ∈ secrets) (hne : s ≠ "")
    (hstar : '*' ∉ s.toList) (text : String) : ¬ s.toList <:+: (redact text secrets).toList := by
  intro hi
  rw [redact, String.toList_ofList] at hi
  have hnil : s.toList ≠ [] := fun h => hne (String.toList_eq_nil_iff.mp h)
  exact not_infix_maskSecrets hs hnil hstar _ (infix_of_infix_maskShapes hstar hi)

/-- A secret without a star is not left where it is the only one. -/
theorem not_infix_redact_self {secret : String} (hne : secret ≠ "") (hstar : '*' ∉ secret.toList) (text : String) :
    ¬ secret.toList <:+: (redact text [secret]).toList :=
  not_infix_redact List.mem_cons_self hne hstar text

theorem maskSecrets_eq_nil_iff (secrets : List String) {t : List Char} : maskSecrets secrets t = [] ↔ t = [] := by
  induction secrets generalizing t with
  | nil => exact Iff.rfl
  | cons s secrets ih =>
    have hone := masked_literal (substituteFrom_substituted (literal_fits s.toList) mask none t)
    exact ih.trans hone.eq_nil_iff

/-- A redaction leaves nothing only of nothing. -/
theorem redact_eq_empty_iff {text : String} {secrets : List String} : redact text secrets = "" ↔ text = "" := by
  obtain ⟨t₁, t₂, husers, hshort, hlong⟩ := maskShapes_passes (maskSecrets secrets text.toList)
  rw [← String.toList_eq_nil_iff, ← String.toList_eq_nil_iff, redact, String.toList_ofList,
    (masked_tokenWith tokenBeginnings_long hlong).eq_nil_iff,
    (masked_tokenWith tokenBeginnings_short hshort).eq_nil_iff, (masked_userWithPassword husers).eq_nil_iff,
    maskSecrets_eq_nil_iff]

/-- No token and no password is left in a text, nor any secret if none has a star in
it, and then masking it once more changes nothing. -/
theorem redact_complete (text : String) (secrets : List String) :
    ¬ HasToken ["gho_", "ghp_", "ghs_", "ghu_", "ghr_"] (redact text secrets).toList ∧
    ¬ HasToken ["github_pat_"] (redact text secrets).toList ∧
    OnlyMaskedUsers (redact text secrets).toList ∧
    ((∀ s ∈ secrets, '*' ∉ s.toList) →
      (∀ s ∈ secrets, s ≠ "" → ¬ s.toList <:+: (redact text secrets).toList) ∧
      redact (redact text secrets) secrets = redact text secrets) := by
  have hclean : IsClean (redact text secrets).toList := by
    rw [redact, String.toList_ofList]
    exact isClean_maskShapes _
  refine ⟨not_hasToken_of_freeOf hclean.short, not_hasToken_of_freeOf hclean.long, hclean.users, fun hstar => ?_⟩
  have hgone : ∀ s ∈ secrets, s ≠ "" → ¬ s.toList <:+: (redact text secrets).toList :=
    fun s hs hne => not_infix_redact hs hne (hstar s hs) text
  refine ⟨hgone, ?_⟩
  have hsecrets : maskSecrets secrets (redact text secrets).toList = (redact text secrets).toList :=
    maskSecrets_of_not_infix fun s hs hne => hgone s hs fun h => hne (h ▸ rfl)
  calc redact (redact text secrets) secrets
      = String.ofList (maskShapes (maskSecrets secrets (redact text secrets).toList)) := rfl
    _ = String.ofList (redact text secrets).toList := by rw [hsecrets, hclean.maskShapes_eq]
    _ = redact text secrets := String.ofList_toList

/-- A secret in front of a token, which begins a word once the secret is masked. -/
theorem redact_complete_secretBeforeToken :
    (∀ s ∈ ["s3cr3t"], '*' ∉ s.toList) ∧
      redact "s3cr3tghp_a x-access-token:s3cr3t@host" ["s3cr3t"] = "****** x-access-token:***@host" ∧
      redact (redact "s3cr3tghp_a x-access-token:s3cr3t@host" ["s3cr3t"]) ["s3cr3t"] =
        redact "s3cr3tghp_a x-access-token:s3cr3t@host" ["s3cr3t"] := by
  have hstar : ∀ s ∈ ["s3cr3t"], '*' ∉ s.toList := by decide +kernel
  exact ⟨hstar, by decide +kernel, ((redact_complete _ _).2.2.2 hstar).2⟩

end RepoOrbit.Text
