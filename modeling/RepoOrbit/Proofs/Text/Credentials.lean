import RepoOrbit.Proofs.Lists
import RepoOrbit.Proofs.Text.Substitution

/-!
# Passwords and tokens in a text

Two kinds of credentials are known by how they look: a password between the user
name `x-access-token` and the sign after it (`IsPassword`), and a token, which is one
of some beginnings at the start of a word and all token characters behind it
(`HasToken`). For both, what stands in a text where they have been masked:

* `onlyMaskedUsers_substituted`: every password is the mask; masking tokens
  afterwards does not change that (`Masked.onlyMaskedUsers`);
* `freeOf_tokenWith`: no token of the kind is left, and none of another kind comes up.
  A mask may stand where a word went on, but what follows it does not begin a token,
  as tokens are masked to their end.
-/

namespace RepoOrbit.Text

/-! ## Passwords -/

/-- What can stand between the user name and the sign after it. -/
def IsPassword (p : List Char) : Prop := p ≠ [] ∧ ∀ c ∈ p, c ≠ '@' ∧ isWhite c = false

/-- What is put in place of a user name with its password. -/
def maskedUser : List Char := accessUser ++ mask ++ ['@']

/-- Every password in a text is the mask. -/
def OnlyMaskedUsers (t : List Char) : Prop :=
  ∀ u p v, t = u ++ (accessUser ++ (p ++ '@' :: v)) → IsPassword p → p = mask

theorem userWithPassword_eq_some_iff {before : Option Char} {t : List Char} {n : Nat} :
    userWithPassword before t = some n ↔
      ∃ p v, IsPassword p ∧ t = accessUser ++ (p ++ '@' :: v) ∧ n = accessUser.length + p.length + 1 := by
  unfold userWithPassword
  constructor
  · intro h
    obtain ⟨hbegins, h⟩ := Option.ite_none_right_eq_some.mp h
    obtain ⟨rest, rfl⟩ := List.isPrefixOf_iff_prefix.mp hbegins
    dsimp only at h
    rw [List.drop_left, drop_length_takeWhile, Option.ite_none_left_eq_some] at h
    obtain ⟨hpassword, hn⟩ := h
    simp only [Bool.or_eq_true, List.isEmpty_iff, bne_iff_ne, not_or, not_not] at hpassword
    obtain ⟨hne, hsign⟩ := hpassword
    obtain ⟨v, hv⟩ := List.head?_eq_some_iff.mp hsign
    refine ⟨rest.takeWhile fun c => c != '@' && !isWhite c, v, ⟨hne, fun c hc => ?_⟩, ?_, (Option.some.inj hn).symm⟩
    · simpa using List.mem_takeWhile_imp hc
    · rw [← hv, List.takeWhile_append_dropWhile]
  · rintro ⟨p, v, ⟨hne, hp⟩, rfl, rfl⟩
    have htake : (p ++ '@' :: v).takeWhile (fun c => c != '@' && !isWhite c) = p :=
      takeWhile_append_cons (fun c hc => by simpa using hp c hc) (by simp)
    rw [if_pos (List.isPrefixOf_iff_prefix.mpr (List.prefix_append _ _))]
    dsimp only
    rw [List.drop_left, htake, List.drop_left, if_neg]
    simp [hne]

theorem userWithPassword_fits : userWithPassword.Fits := by
  intro before t n h
  obtain ⟨p, v, -, rfl, rfl⟩ := userWithPassword_eq_some_iff.mp h
  simp only [List.length_append, List.length_cons]
  omega

/-- What is replaced is the user name with its password and the sign after it. -/
theorem eq_of_userWithPassword {before : Option Char} {m t : List Char}
    (h : userWithPassword before (m ++ t) = some m.length) : ∃ p, IsPassword p ∧ m = accessUser ++ (p ++ ['@']) := by
  obtain ⟨p, v, hp, htext, hlength⟩ := userWithPassword_eq_some_iff.mp h
  have hcut : m ++ t = (accessUser ++ (p ++ ['@'])) ++ v := by rw [htext]; simp
  refine ⟨p, hp, (List.append_inj hcut ?_).1⟩
  rw [hlength]
  simp [Nat.add_assoc]

/-- Replacing user names with their passwords masks the passwords. -/
theorem masked_userWithPassword {before : Option Char} {t o : List Char}
    (h : Substituted userWithPassword maskedUser before t o) :
    Masked (fun c => c ≠ '@' ∧ isWhite c = false) t o := by
  induction h with
  | done => exact .done
  | keep _ _ ih => exact .keep ih
  | @replace before m t o _ hshape _ ih =>
    obtain ⟨p, ⟨hne, hp⟩, rfl⟩ := eq_of_userWithPassword hshape
    have hmask := Masked.keep_all accessUser (.mask hne hp (.keep (c := '@') ih))
    simpa [maskedUser] using hmask

/-- A password of the result was one before, if no more than passwords have been masked. -/
theorem IsPassword.of_masked {P : Char → Prop} (hP : ∀ c, P c → c ≠ '@' ∧ isWhite c = false) {p p' : List Char}
    (h : Masked P p' p) (hp : IsPassword p) : IsPassword p' := by
  refine ⟨?_, h.forall_of_forall hP hp.2⟩
  rintro rfl
  exact hp.1 h.nil_eq

theorem star_not_mem_accessUser : '*' ∉ accessUser := by decide +kernel

/-- A user name with its password was there before, if no more than passwords have
been masked. -/
theorem Masked.userWithPassword_before {P : Char → Prop} (hP : ∀ c, P c → c ≠ '@' ∧ isWhite c = false)
    {t p v : List Char} (h : Masked P t (accessUser ++ (p ++ '@' :: v))) (hp : IsPassword p) :
    ∃ p' v', t = accessUser ++ (p' ++ '@' :: v') ∧ IsPassword p' ∧ Masked P p' p := by
  obtain ⟨t', rfl, hrest⟩ := h.split_prefix star_not_mem_accessUser
  obtain ⟨p', v', rfl, hmasked, -⟩ := hrest.split_at (c := '@') (by decide)
  exact ⟨p', v', rfl, hp.of_masked hP hmasked, hmasked⟩

/-- No user name begins inside of one that has been put in. -/
theorem append_eq_maskedUser_append {u w o : List Char} (h : u ++ 'x' :: w = maskedUser ++ o) :
    u = [] ∨ ∃ u', u = maskedUser ++ u' ∧ o = u' ++ 'x' :: w := by
  rcases List.append_eq_append_iff.mp h with ⟨a, hmasked, ho⟩ | hu
  · cases u with
    | nil => exact .inl rfl
    | cons c u =>
      cases a with
      | nil => exact .inr ⟨[], by rw [hmasked, List.append_nil, List.append_nil], ho.symm⟩
      | cons d a =>
        obtain ⟨rfl, -⟩ := List.cons.inj ho
        have hmem : 'x' ∈ maskedUser.tail := by
          rw [hmasked]
          exact List.mem_append_right u List.mem_cons_self
        exact absurd hmem (by decide +kernel)
  · exact .inr hu

theorem OnlyMaskedUsers.of_cons {c : Char} {t : List Char} (h : OnlyMaskedUsers (c :: t)) : OnlyMaskedUsers t :=
  fun u p v ht => h (c :: u) p v (by rw [ht, List.cons_append])

theorem OnlyMaskedUsers.of_append {s t : List Char} (h : OnlyMaskedUsers (s ++ t)) : OnlyMaskedUsers t :=
  fun u p v ht => h (s ++ u) p v (by rw [ht, List.append_assoc])

theorem accessUser_eq_cons : accessUser = 'x' :: accessUser.tail := rfl

theorem onlyMaskedUsers_substituted {before : Option Char} {t o : List Char}
    (h : Substituted userWithPassword maskedUser before t o) : OnlyMaskedUsers o := by
  induction h with
  | done =>
    intro u p v ho
    exact absurd ho (by simp)
  | @keep before c t o hnone h ih =>
    intro u p v ho hp
    cases u with
    | nil =>
      have hmasked := masked_userWithPassword (.keep hnone h)
      rw [ho, List.nil_append] at hmasked
      obtain ⟨p', v', ht, hp', -⟩ := hmasked.userWithPassword_before (fun _ h => h) hp
      exact absurd (userWithPassword_eq_some_iff.mpr ⟨p', v', hp', ht, rfl⟩) (hnone _)
    | cons d u => exact ih u p v (List.cons.inj ho).2 hp
  | @replace before m t o _ _ _ ih =>
    intro u p v ho hp
    have hcut : u ++ 'x' :: (accessUser.tail ++ (p ++ '@' :: v)) = maskedUser ++ o := by
      rw [ho, ← List.cons_append, ← accessUser_eq_cons]
    rcases append_eq_maskedUser_append hcut with rfl | ⟨u', -, ho'⟩
    · have hrest : accessUser ++ (mask ++ '@' :: o) = accessUser ++ (p ++ '@' :: v) := by
        simpa [maskedUser] using ho
      exact (append_cons_inj (fun hm => (hp.2 _ hm).1 rfl) (by decide) (List.append_cancel_left hrest).symm).1
    · exact ih u' p v (by rw [ho', ← List.cons_append, ← accessUser_eq_cons]) hp

/-- Masking other things keeps the passwords that are left. -/
theorem Masked.onlyMaskedUsers {P : Char → Prop} (hP : ∀ c, P c → c ≠ '@' ∧ isWhite c = false) (hstar : ¬ P '*')
    {t o : List Char} (h : Masked P t o) (ht : OnlyMaskedUsers t) : OnlyMaskedUsers o := by
  rintro u p v rfl hp
  obtain ⟨u', t', rfl, -, hrest⟩ := split_at (c := 'x') (v := accessUser.tail ++ (p ++ '@' :: v)) (by decide) h
  obtain ⟨p', v', hv', hp', hmasked⟩ := (Masked.keep (c := 'x') hrest).userWithPassword_before hP hp
  obtain rfl := ht u' p' v' (by rw [hv']) hp'
  exact hmasked.eq_of_forall_not fun c hc => by
    obtain rfl : c = '*' := by simpa [Text.mask] using hc
    exact hstar

/-- A text of which every password is the mask stays as it is. -/
theorem Substituted.eq_of_onlyMaskedUsers {before : Option Char} {t o : List Char}
    (h : Substituted userWithPassword maskedUser before t o) (ht : OnlyMaskedUsers t) : o = t := by
  induction h with
  | done => rfl
  | keep _ _ ih => rw [ih ht.of_cons]
  | @replace before m t o _ hshape _ ih =>
    obtain ⟨p, hp, rfl⟩ := eq_of_userWithPassword hshape
    obtain rfl := ht [] p t (by simp) hp
    rw [ih ht.of_append]
    rfl

/-! ## Tokens -/

/-- A token stands in a text: one of the beginnings at the start of a word, and
token characters behind it. -/
def HasToken (beginnings : List String) (text : List Char) : Prop :=
  ∃ u b body v, b ∈ beginnings ∧ body ≠ [] ∧ (∀ c ∈ body, isTokenChar c) ∧ u.getLast?.any isWordChar = false ∧
    text = u ++ (b.toList ++ body ++ v)

/-- Beginnings are made of token characters. -/
def TokenBeginnings (beginnings : List String) : Prop :=
  ∀ b ∈ beginnings, b.toList ≠ [] ∧ ∀ c ∈ b.toList, isTokenChar c

/-- A token begins a text, given the character before it. -/
def BeginsToken (beginnings : List String) (before : Option Char) (t : List Char) : Prop :=
  before.any isWordChar = false ∧ ∃ b ∈ beginnings, ∃ c, isTokenChar c ∧ b.toList ++ [c] <+: t

variable {beginnings beginnings' : List String} {before : Option Char}

/-- A token is taken to its end. -/
theorem eq_of_tokenWith {t : List Char} {n : Nat} (h : tokenWith beginnings before t = some n) :
    before.any isWordChar = false ∧ ∃ b ∈ beginnings, ∃ body v, t = b.toList ++ body ++ v ∧ body ≠ [] ∧
      (∀ c ∈ body, isTokenChar c) ∧ (∀ c ∈ v.head?, isTokenChar c = false) ∧ n = (b.toList ++ body).length := by
  unfold tokenWith at h
  obtain ⟨hbefore, h⟩ := Option.ite_none_left_eq_some.mp h
  obtain ⟨b, hb, h⟩ := List.exists_of_findSome?_eq_some h
  obtain ⟨hbegins, h⟩ := Option.ite_none_right_eq_some.mp h
  obtain ⟨rest, rfl⟩ := List.isPrefixOf_iff_prefix.mp hbegins
  dsimp only at h
  rw [List.drop_left, Option.ite_none_left_eq_some] at h
  obtain ⟨hne, hn⟩ := h
  refine ⟨by simpa using hbefore, b, hb, rest.takeWhile isTokenChar, rest.dropWhile isTokenChar, ?_, ?_, ?_, ?_, ?_⟩
  · rw [List.append_assoc, List.takeWhile_append_dropWhile]
  · exact fun hnil => hne (List.isEmpty_iff.mpr hnil)
  · exact fun c hc => List.mem_takeWhile_imp hc
  · intro c hc
    have hhead := List.head?_dropWhile_not isTokenChar rest
    rw [hc] at hhead
    exact hhead
  · rw [List.length_append]
    exact (Option.some.inj hn).symm

theorem tokenWith_fits : (tokenWith beginnings).Fits := by
  intro before t n h
  obtain ⟨-, b, -, body, v, rfl, -, -, -, rfl⟩ := eq_of_tokenWith h
  exact (List.prefix_append _ v).length_le

theorem tokenWith_ne_none_of_beginsToken {t : List Char} (h : BeginsToken beginnings before t) :
    tokenWith beginnings before t ≠ none := by
  obtain ⟨hbefore, b, hb, c, hc, rest, rfl⟩ := h
  unfold tokenWith
  rw [if_neg (by simpa using hbefore)]
  intro hnone
  have hb := List.findSome?_eq_none_iff.mp hnone b hb
  have hbegins : b.toList.isPrefixOf (b.toList ++ [c] ++ rest) :=
    List.isPrefixOf_iff_prefix.mpr (by rw [List.append_assoc]; exact List.prefix_append _ _)
  dsimp only at hb
  rw [if_pos hbegins, List.append_assoc, List.drop_left] at hb
  simp [hc] at hb

theorem not_beginsToken_of_ne {t : List Char} (hkept : ∀ n, tokenWith beginnings before t ≠ some (n + 1)) :
    ¬ BeginsToken beginnings before t := by
  intro h
  obtain ⟨n, hn⟩ := Option.ne_none_iff_exists'.mp (tokenWith_ne_none_of_beginsToken h)
  obtain ⟨-, b, -, body, v, -, hbody, -, -, rfl⟩ := eq_of_tokenWith hn
  obtain ⟨c, body, rfl⟩ := List.exists_cons_of_ne_nil hbody
  exact hkept (b.toList ++ body).length (by rw [hn]; simp [Nat.add_assoc])

theorem tokenWith_ne_of_not_beginsToken {t : List Char} (h : ¬ BeginsToken beginnings before t) (n : Nat) :
    tokenWith beginnings before t ≠ some n := by
  intro hn
  obtain ⟨hbefore, b, hb, body, v, rfl, hbody, hchars, -, -⟩ := eq_of_tokenWith hn
  obtain ⟨c, body, rfl⟩ := List.exists_cons_of_ne_nil hbody
  exact h ⟨hbefore, b, hb, c, hchars c List.mem_cons_self, body ++ v, by simp⟩

theorem not_beginsToken_cons {c : Char} {t : List Char} (hbeginnings : TokenBeginnings beginnings)
    (hc : isTokenChar c = false) : ¬ BeginsToken beginnings before (c :: t) := by
  rintro ⟨-, b, hb, d, -, v, hv⟩
  obtain ⟨hne, hchars⟩ := hbeginnings b hb
  obtain ⟨e, rest, he⟩ := List.exists_cons_of_ne_nil hne
  rw [he, List.cons_append, List.cons_append] at hv
  obtain ⟨rfl, -⟩ := List.cons.inj hv
  have htoken := hchars e (he ▸ List.mem_cons_self)
  rw [hc] at htoken
  cases htoken

/-- A character that is not of a token can stand before a text as well as any other,
if such a character begins the text. -/
theorem FreeOf.of_head {t : List Char} (hbeginnings : TokenBeginnings beginnings)
    (hhead : ∀ c ∈ t.head?, isTokenChar c = false) (h : FreeOf (tokenWith beginnings) before t)
    (before' : Option Char) : FreeOf (tokenWith beginnings) before' t := by
  cases t with
  | nil => trivial
  | cons c t =>
    have hnot : ¬ BeginsToken beginnings before' (c :: t) := not_beginsToken_cons hbeginnings (hhead c rfl)
    exact ⟨fun n => tokenWith_ne_of_not_beginsToken hnot (n + 1), h.2⟩

theorem masked_tokenWith (hbeginnings : TokenBeginnings beginnings) {t o : List Char}
    (h : Substituted (tokenWith beginnings) mask before t o) : Masked (fun c => isTokenChar c) t o := by
  refine h.masked fun before m t hshape => ?_
  obtain ⟨-, b, hb, body, v, hcut, -, hchars, -, hlength⟩ := eq_of_tokenWith hshape
  obtain ⟨rfl, -⟩ := List.append_inj hcut hlength
  exact List.forall_mem_append.mpr ⟨(hbeginnings b hb).2, hchars⟩

theorem head?_of_masked {P : Char → Prop} {t o : List Char} (h : Masked P t o)
    (ht : ∀ c ∈ t.head?, isTokenChar c = false) : ∀ c ∈ o.head?, isTokenChar c = false := by
  cases h with
  | done => exact ht
  | keep => exact ht
  | mask =>
    intro c hc
    obtain rfl : '*' = c := Option.some.inj hc
    decide

theorem freeOf_mask_append {o : List Char} (hbeginnings : TokenBeginnings beginnings)
    (h : FreeOf (tokenWith beginnings) (some '*') o) : FreeOf (tokenWith beginnings) before (mask ++ o) := by
  have hstar : ∀ before t n, tokenWith beginnings before ('*' :: t) ≠ some (n + 1) := fun before t n =>
    tokenWith_ne_of_not_beginsToken (not_beginsToken_cons hbeginnings (by decide)) (n + 1)
  exact ⟨hstar _ _, hstar _ _, hstar _ _, h⟩

/-- Masking tokens leaves none of their kind, and makes none of another kind. -/
theorem freeOf_tokenWith (hbeginnings : TokenBeginnings beginnings) (hbeginnings' : TokenBeginnings beginnings')
    {t o : List Char} (h : Substituted (tokenWith beginnings) mask before t o)
    (ht : beginnings' = beginnings ∨ FreeOf (tokenWith beginnings') before t) :
    FreeOf (tokenWith beginnings') before o := by
  induction h with
  | done => trivial
  | @keep before c t o hnone h ih =>
    have hnot : ¬ BeginsToken beginnings' before (c :: t) := by
      rcases ht with rfl | ht
      · exact not_beginsToken_of_ne hnone
      · exact not_beginsToken_of_ne ht.1
    refine ⟨fun n => tokenWith_ne_of_not_beginsToken (fun hbegins => hnot ?_) (n + 1), ih (ht.imp id And.right)⟩
    -- what would begin a token has no star in it, so that it was there before
    obtain ⟨hbefore, b, hb, d, hd, v, hv⟩ := hbegins
    have hstar : '*' ∉ b.toList ++ [d] := by
      have hchars : ∀ e ∈ b.toList ++ [d], isTokenChar e :=
        List.forall_mem_append.mpr ⟨(hbeginnings' b hb).2, by simpa using hd⟩
      exact fun hm => absurd (hchars _ hm) (by decide)
    have hmasked := masked_tokenWith hbeginnings (.keep hnone h)
    rw [← hv] at hmasked
    obtain ⟨t', ht', -⟩ := hmasked.split_prefix hstar
    exact ⟨hbefore, b, hb, d, hd, t', ht'.symm⟩
  | @replace before m t o hm hshape h ih =>
    obtain ⟨-, b, hb, body, v, hcut, -, -, hend, hlength⟩ := eq_of_tokenWith hshape
    obtain ⟨rfl, rfl⟩ := List.append_inj hcut hlength
    have ho := ih (ht.imp id fun hfree => by
      have hafter := hfree.after
      rwa [List.getLast?_eq_some_getLast hm, Option.some_or, ← List.getLast?_eq_some_getLast hm] at hafter)
    exact freeOf_mask_append hbeginnings'
      (ho.of_head hbeginnings' (head?_of_masked (masked_tokenWith hbeginnings h) hend) _)

theorem not_hasToken_of_freeOf {t : List Char} (h : FreeOf (tokenWith beginnings) none t) :
    ¬ HasToken beginnings t := by
  rintro ⟨u, b, body, v, hb, hbody, hchars, hbefore, rfl⟩
  obtain ⟨c, body, rfl⟩ := List.exists_cons_of_ne_nil hbody
  have hbegins : BeginsToken beginnings (u.getLast?.or none) (b.toList ++ (c :: body) ++ v) := by
    refine ⟨by rwa [Option.or_none], b, hb, c, hchars c List.mem_cons_self, body ++ v, by simp⟩
  have hafter := h.after
  cases htext : b.toList ++ (c :: body) ++ v with
  | nil => simp at htext
  | cons d rest =>
    rw [htext] at hafter hbegins
    exact not_beginsToken_of_ne hafter.1 hbegins

/-- How short tokens begin. -/
def shortBeginnings : List String := ["gho_", "ghp_", "ghs_", "ghu_", "ghr_"]

/-- How long tokens begin. -/
def longBeginnings : List String := ["github_pat_"]

theorem tokenBeginnings_of_all (h : beginnings.all fun b => !b.toList.isEmpty && b.toList.all fun c => isTokenChar c) :
    TokenBeginnings beginnings := by
  intro b hb
  obtain ⟨hne, hchars⟩ := (Bool.and_eq_true _ _).mp (List.all_eq_true.mp h b hb)
  exact ⟨by simpa using hne, List.all_eq_true.mp hchars⟩

theorem tokenBeginnings_short : TokenBeginnings shortBeginnings := tokenBeginnings_of_all (by decide +kernel)

theorem tokenBeginnings_long : TokenBeginnings longBeginnings := tokenBeginnings_of_all (by decide +kernel)

theorem toNat_of_isTokenChar {c : Char} (h : isTokenChar c) :
    (48 ≤ c.toNat ∧ c.toNat ≤ 57) ∨ (65 ≤ c.toNat ∧ c.toNat ≤ 90) ∨ c.toNat = 95 ∨
      (97 ≤ c.toNat ∧ c.toNat ≤ 122) := by
  have hranges : (decide (c.val ≥ 65 ∧ c.val ≤ 90) || c.val ≥ 97 && c.val ≤ 122 || c.val ≥ 48 && c.val ≤ 57 ||
      c == '_') = true := h
  simp only [Bool.or_eq_true, Bool.and_eq_true, decide_eq_true_eq, ge_iff_le, UInt32.le_iff_toNat_le,
    beq_iff_eq] at hranges
  rcases hranges with ((h | h) | h) | rfl
  · exact .inr (.inl h)
  · exact .inr (.inr (.inr h))
  · exact .inl h
  · exact .inr (.inr (.inl rfl))

/-- A token character can stand in a password. -/
theorem ne_sign_of_isTokenChar {c : Char} (h : isTokenChar c) : c ≠ '@' ∧ isWhite c = false := by
  have hrange := toNat_of_isTokenChar h
  refine ⟨?_, ?_⟩
  · rintro rfl
    revert h
    decide
  · simp only [isWhite, Bool.or_eq_false_iff, Bool.and_eq_false_iff, decide_eq_false_iff_not, beq_eq_false_iff_ne]
    omega

end RepoOrbit.Text
