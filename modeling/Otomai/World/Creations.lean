import Mathlib.Data.List.Flatten
import Otomai.World.Approach

/-!
# Characters that were created

However the sessions interleave, and whatever fails, a session that is told of a character has it, with all its
spells, and nobody else was told of it; an insertion that fails halfway leaves a character with some of its spells.

* `Advances.of_advance`: what a step of a session does.
* `creations_told`: what the sessions are told of the characters they create.
* `approach_own`: a session lists and selects characters of its account only.
-/

namespace Otomai.World.Approach

open Trace

/-! ### What holds between two steps -/

/-- The character is what was asked for. -/
structure Matches (accountId : Int) (msg : CharacterCreationRequestMessage) (c : Identity) : Prop where
  accountId : c.accountId = accountId
  name : c.name = msg.name
  breedId : c.breedId = Int32.ofNat msg.breed.toNat
  sex : c.sex = if msg.sex then 1 else 0
  colors : c.colors = msg.colors

/-- The answers that a request can have. -/
inductive Answered (s : Shared) (accountId : Int) (msg : CharacterCreationRequestMessage) :
    UInt8 → Option Identity → Prop where
  | created (c : Identity) (hc : c ∈ s.characters.who) (hmatches : Matches accountId msg c)
    (hspells : spellsOf s.spells c.id = startingSpells c) : Answered s accountId msg 0 (some c)
  | taken (c : Identity) (hc : c ∈ s.characters.who) (hname : c.name = msg.name) : Answered s accountId msg 1 none
  | failed (hvalid : ValidName msg.name) : Answered s accountId msg 2 none
  | invalid (hvalid : ¬ValidName msg.name) : Answered s accountId msg 4 none

/-- The row is one of the account. -/
def Owns (s : Shared) (accountId : Int) (row : Row) : Prop :=
  row.who ∈ s.characters.who ∧ row.who.accountId = accountId

/-- What a session has said is true. -/
def Told (s : Shared) (accountId : Int) : Reply → Prop
  | .creationResult msg result character => Answered s accountId msg result character
  | .charactersList rows =>
    (∀ row ∈ rows, Owns s accountId row) ∧ rows.Pairwise fun row row' => row.who.id < row'.who.id
  | .characterSelectedSuccess row => Owns s accountId row
  | _ => True

def createdOf : Reply → Option Identity
  | .creationResult _ _ character => character
  | _ => none

def listOf : Reply → Option (List Row)
  | .charactersList rows => some rows
  | _ => none

/-- A list is not without a character that the session was told of before. -/
def Later (r r' : Reply) : Prop := ∀ c ∈ createdOf r, ∀ rows ∈ listOf r', ∃ row ∈ rows, row.who = c

def PhaseHolds (s : Shared) (p : Player) : Prop :=
  match p.phase with
  | .checking msg => ValidName msg.name
  | .inserting msg => ValidName msg.name ∧ Storable msg.name
  | .learning msg c left => left ≠ [] ∧ ValidName msg.name ∧ c ∈ s.characters.who ∧ Matches p.accountId msg c ∧
    startingSpells c = spellsOf s.spells c.id ++ left
  | .telling msg result character => Answered s p.accountId msg result character
  | .naming id => ∃ c ∈ s.characters.who, c.id = id ∧ c.accountId = p.accountId
  | .adding _ target => target ≠ p.accountId ∧ ∃ c ∈ s.characters.who, c.accountId = target
  | _ => True

/-- What holds of a session between two of its steps. -/
structure Good (s : Shared) (p : Player) : Prop where
  told : ∀ r ∈ p.sent, Told s p.accountId r
  later : p.sent.Pairwise Later
  phase : PhaseHolds s p
  selected : ∀ id, p.characterId = some id →
    ∃ c ∈ s.characters.who, c.id = id ∧ c.accountId = p.accountId ∧ p.characterName = some c.name

/-- What holds of the tables; the spells of a character are the first ones of its breed. -/
structure Sound (s : Shared) : Prop where
  named : ∀ c ∈ s.characters.who, ValidName c.name ∧ Storable c.name ∧ c.accountId ∈ s.accounts
  spells : ∀ c ∈ s.characters.who, spellsOf s.spells c.id <+: startingSpells c
  known : ∀ row ∈ s.spells, ∃ c ∈ s.characters.who, c.id = row.characterId
  books : ∀ book, (s.pairs book).Nodup ∧
    ∀ q ∈ s.pairs book, q.1 ≠ q.2 ∧ q.1 ∈ s.accounts ∧ q.2 ∈ s.accounts

/-- The character that a session is about to create. -/
def Phase.creates : Phase → List Identity
  | .learning _ c _ => [c]
  | .telling _ _ character => character.toList
  | _ => []

/-- The characters of which a session was told, or will be. -/
def Player.claims (p : Player) : List Identity := p.sent.filterMap createdOf ++ p.phase.creates

/-- The tables have grown; only of some characters have the spells changed. -/
structure Extends (changed : List Identity) (s s' : Shared) : Prop where
  accounts : s.accounts ⊆ s'.accounts
  characters : s.characters.who ⊆ s'.characters.who
  spells : ∀ c ∈ s.characters.who, (∀ d ∈ changed, d.id ≠ c.id) → spellsOf s'.spells c.id = spellsOf s.spells c.id

theorem Extends.refl (changed : List Identity) (s : Shared) : Extends changed s s :=
  ⟨List.Subset.refl _, List.Subset.refl _, fun _ _ _ => rfl⟩

section Frame

variable {s s' : Shared} {p : Player} {changed : List Identity} {accountId : Int}

theorem Answered.mono {msg : CharacterCreationRequestMessage} {result : UInt8} {character : Option Identity}
    (h : Answered s accountId msg result character) (hext : Extends changed s s')
    (hclaims : ∀ c ∈ character, ∀ d ∈ changed, d.id ≠ c.id) : Answered s' accountId msg result character := by
  cases h with
  | created c hc hmatches hspells =>
    exact .created c (hext.characters hc) hmatches ((hext.spells c hc (hclaims c rfl)).trans hspells)
  | taken c hc hname => exact .taken c (hext.characters hc) hname
  | failed hvalid => exact .failed hvalid
  | invalid hvalid => exact .invalid hvalid

theorem Told.mono {r : Reply} (h : Told s accountId r) (hext : Extends changed s s')
    (hclaims : ∀ c ∈ createdOf r, ∀ d ∈ changed, d.id ≠ c.id) : Told s' accountId r := by
  cases r with
  | creationResult msg result character => exact Answered.mono h hext hclaims
  | charactersList rows => exact ⟨fun row hrow => ⟨hext.characters (h.1 row hrow).1, (h.1 row hrow).2⟩, h.2⟩
  | characterSelectedError => trivial
  | characterSelectedSuccess row => exact ⟨hext.characters h.1, h.2⟩
  | emptyList book => trivial
  | friendDeleteResult => trivial

/-- What other sessions do to the tables does not matter, as long as they leave the characters of this one alone. -/
theorem Good.mono (h : Good s p) (hext : Extends changed s s')
    (hclaims : ∀ c ∈ p.claims, ∀ d ∈ changed, d.id ≠ c.id) :
    Good s' p where
  told := fun r hr => (h.told r hr).mono hext fun c hc =>
    hclaims c (List.mem_append_left _ (List.mem_filterMap.2 ⟨r, hr, hc⟩))
  later := h.later
  phase := by
    have hphase := h.phase
    have hcreates : ∀ c ∈ p.phase.creates, ∀ d ∈ changed, d.id ≠ c.id :=
      fun c hc => hclaims c (List.mem_append_right _ hc)
    unfold PhaseHolds at hphase ⊢
    generalize p.phase = phase at hphase hcreates ⊢
    cases phase with
    | learning msg c left =>
      obtain ⟨hleft, hvalid, hc, hmatches, hspells⟩ := hphase
      refine ⟨hleft, hvalid, hext.characters hc, hmatches, ?_⟩
      rw [hext.spells c hc (hcreates c List.mem_cons_self)]
      exact hspells
    | telling msg result character =>
      exact Answered.mono hphase hext fun c hc => hcreates c (by simpa [Phase.creates] using hc)
    | naming id =>
      obtain ⟨c, hc, hid⟩ := hphase
      exact ⟨c, hext.characters hc, hid⟩
    | adding book target =>
      obtain ⟨hne, c, hc, haccount⟩ := hphase
      exact ⟨hne, c, hext.characters hc, haccount⟩
    | _ => exact hphase
  selected := fun id hid => by
    obtain ⟨c, hc, hrest⟩ := h.selected id hid
    exact ⟨c, hext.characters hc, hrest⟩

/-- A session that waits for something else. -/
theorem Good.wait (h : Good s p) {phase : Phase} (hphase : PhaseHolds s { p with phase }) : Good s { p with phase } :=
  ⟨h.told, h.later, hphase, h.selected⟩

theorem Good.close (h : Good s p) : Good s p.close := h.wait trivial

theorem Told.created {r : Reply} (h : Told s accountId r) {c : Identity} (hc : c ∈ createdOf r) :
    c ∈ s.characters.who ∧ c.accountId = accountId := by
  cases r with
  | creationResult msg result character =>
    obtain rfl : character = some c := hc
    cases h with
    | created _ hmem hmatches => exact ⟨hmem, hmatches.accountId⟩
  | _ => cases hc

/-- What a session has been told of, and what it holds, is in the tables. -/
theorem Good.mem_who (h : Good s p) {c : Identity} (hc : c ∈ p.claims) : c ∈ s.characters.who := by
  rcases List.mem_append.1 hc with hc | hc
  · obtain ⟨r, hr, hcreated⟩ := List.mem_filterMap.1 hc
    exact ((h.told r hr).created hcreated).1
  · have hphase := h.phase
    unfold PhaseHolds at hphase
    generalize p.phase = phase at hphase hc
    cases phase with
    | learning msg d left =>
      obtain rfl := List.mem_singleton.1 hc
      exact hphase.2.2.1
    | telling msg result character =>
      obtain rfl := Option.mem_toList.1 hc
      cases hphase with
      | created _ hc => exact hc
    | _ => cases hc

/-- A session that says something. -/
theorem Good.say (h : Good s p) {r : Reply} (htold : Told s p.accountId r) (hlater : ∀ r' ∈ p.sent, Later r' r) :
    Good s (p.say r) where
  told := fun r' hr' => by
    rcases List.mem_append.1 hr' with hr' | hr'
    · exact h.told r' hr'
    · rw [List.mem_singleton.1 hr']
      exact htold
  later := by
    refine List.pairwise_append.2 ⟨h.later, List.pairwise_singleton _ _, fun r₁ hr₁ r₂ hr₂ => ?_⟩
    rw [List.mem_singleton.1 hr₂]
    exact hlater r₁ hr₁
  phase := trivial
  selected := h.selected

end Frame

/-! ### Steps of a session -/

/-- A session has moved on: it has at most one more character, and that one is new. -/
structure Advances (s : Shared) (p : Player) (r : Shared × Player) : Prop where
  sound : Sound r.1
  good : Good r.1 r.2
  grows : Extends p.phase.creates s r.1
  account : r.2.accountId = p.accountId
  claims : r.2.claims.Sublist p.claims ∨
    ∃ c, r.2.claims = p.claims ++ [c] ∧ ∀ d ∈ s.characters.who, d.id ≠ c.id

section Steps

variable {s : Shared} {p : Player} {failure : Option Failure}

/-- Steps that leave the tables alone. -/
theorem Advances.stay (hs : Sound s) {p' : Player} (hp : Good s p') (haccount : p'.accountId = p.accountId)
    (hclaims : p'.claims.Sublist p.claims) : Advances s p (s, p') :=
  ⟨hs, hp, Extends.refl _ s, haccount, .inl hclaims⟩

theorem Player.claims_wait_sublist {phase : Phase} (h : phase.creates.Sublist p.phase.creates) :
    ({ p with phase } : Player).claims.Sublist p.claims :=
  List.Sublist.append (List.Sublist.refl _) h

/-- Steps in which a session goes on to wait for something that creates nothing. -/
theorem Advances.wait (hs : Sound s) (hp : Good s p) {phase : Phase} (hcreates : phase.creates = [])
    (hphase : PhaseHolds s { p with phase }) : Advances s p (s, { p with phase }) := by
  refine .stay hs (hp.wait hphase) rfl (Player.claims_wait_sublist ?_)
  rw [hcreates]
  exact List.nil_sublist _

theorem Advances.close (hs : Sound s) (hp : Good s p) : Advances s p (s, p.close) := .wait hs hp rfl trivial

theorem Player.claims_say_sublist {r : Reply} (hr : createdOf r = none) : (p.say r).claims.Sublist p.claims := by
  have hcreated : (p.sent ++ [r]).filterMap createdOf = p.sent.filterMap createdOf := by
    simp [List.filterMap_append, hr]
  show ((p.sent ++ [r]).filterMap createdOf ++ []).Sublist (p.sent.filterMap createdOf ++ p.phase.creates)
  rw [hcreated]
  exact List.Sublist.append (List.Sublist.refl _) (List.nil_sublist _)

theorem later_of_no_list {r r' : Reply} (h : listOf r' = none) : Later r r' := by
  intro c _ rows hrows
  rw [h] at hrows
  cases hrows

theorem Advances.of_begin (hs : Sound s) (hp : Good s p) (request : Request) : Advances s p (s, begin p request) := by
  cases request with
  | creation msg =>
    simp only [begin]
    split_ifs with hvalid
    · exact .wait hs hp rfl hvalid
    · exact .wait hs hp rfl (Answered.invalid hvalid)
  | _ => exact .wait hs hp rfl trivial

/-- The list has every character that the session was told of. -/
theorem Advances.of_listed (hs : Sound s) (hp : Good s p) : Advances s p (s, listed s p failure) := by
  unfold listed
  split_ifs with hfail
  · exact .close hs hp
  · have htold : Told s p.accountId (.charactersList (s.characters.list p.accountId)) := by
      refine ⟨fun row hrow => ?_, Characters.pairwise_list p.accountId⟩
      obtain ⟨hmem, haccount⟩ := Characters.mem_list.1 hrow
      exact ⟨Characters.who_mem hmem, haccount⟩
    refine .stay hs (hp.say htold fun r hr c hc rows hrows => ?_) rfl (Player.claims_say_sublist rfl)
    obtain rfl := Option.some.inj hrows
    obtain ⟨hmem, haccount⟩ := (hp.told r hr).created hc
    obtain ⟨row, hrow, rfl⟩ := Characters.mem_who.1 hmem
    exact ⟨row, Characters.mem_list.2 ⟨hrow, haccount⟩, rfl⟩

theorem Advances.of_checked (hs : Sound s) (hp : Good s p) {msg : CharacterCreationRequestMessage}
    (hvalid : ValidName msg.name) : Advances s p (s, checked s p msg failure) := by
  unfold checked
  split_ifs with hfail htaken
  · exact .close hs hp
  · obtain ⟨c, hc, hname⟩ := Characters.nameExists_iff.1 htaken
    exact .wait hs hp rfl (Answered.taken c hc hname)
  · have hstorable : Storable msg.name := by
      by_contra hnot
      exact hfail (.inr hnot)
    exact .wait hs hp rfl ⟨hvalid, hstorable⟩

/-! ### Insertions -/

theorem Sound.spellsOf_eq_nil (hs : Sound s) {id : Int} (hid : ∀ d ∈ s.characters.who, d.id ≠ id) :
    spellsOf s.spells id = [] := by
  refine List.filter_eq_nil_iff.2 fun row hrow hrowId => ?_
  obtain ⟨d, hd, hdid⟩ := hs.known row hrow
  exact hid d hd (hdid.trans (of_decide_eq_true hrowId))

/-- The table of characters, with nobody new. -/
theorem Extends.of_who (changed : List Identity) {characters : Characters} (h : characters.who = s.characters.who) :
    Extends changed s { s with characters } where
  accounts := List.Subset.refl _
  characters := fun _ hc => h.symm ▸ hc
  spells := fun _ _ _ => rfl

theorem Sound.of_who (hs : Sound s) {characters : Characters} (h : characters.who = s.characters.who) :
    Sound { s with characters } where
  named := fun c hc => hs.named c (h ▸ hc)
  spells := fun c hc => hs.spells c (h ▸ hc)
  known := fun row hrow => by
    obtain ⟨c, hc, hid⟩ := hs.known row hrow
    exact ⟨c, h.symm ▸ hc, hid⟩
  books := fun book => by
    cases book
    · exact hs.books .friends
    · exact hs.books .ignored

/-- The new character has no spells yet. -/
theorem Sound.insert (hs : Sound s) {characters : Characters} {c : Identity}
    (hwho : characters.who = s.characters.who ++ [c]) (hnew : ∀ d ∈ s.characters.who, d.id ≠ c.id)
    (hnamed : ValidName c.name ∧ Storable c.name ∧ c.accountId ∈ s.accounts) : Sound { s with characters } := by
  have hmem (d : Identity) (hd : d ∈ characters.who) : d ∈ s.characters.who ∨ d = c := by
    rw [hwho] at hd
    simpa using hd
  refine ⟨fun d hd => ?_, fun d hd => ?_, fun row hrow => ?_, fun book => ?_⟩
  · rcases hmem d hd with hd | rfl
    · exact hs.named d hd
    · exact hnamed
  · rcases hmem d hd with hd | rfl
    · exact hs.spells d hd
    · show spellsOf s.spells d.id <+: startingSpells d
      rw [hs.spellsOf_eq_nil hnew]
      exact List.nil_prefix
  · obtain ⟨d, hd, hid⟩ := hs.known row hrow
    refine ⟨d, ?_, hid⟩
    show d ∈ characters.who
    rw [hwho]
    exact List.mem_append_left _ hd
  · cases book
    · exact hs.books .friends
    · exact hs.books .ignored

/-- A session goes on to the spells of its character, or tells of it. -/
theorem Good.learn (hp : Good s p) {msg : CharacterCreationRequestMessage} {c : Identity} {left : List SpellRow}
    (hvalid : ValidName msg.name) (hc : c ∈ s.characters.who) (hmatches : Matches p.accountId msg c)
    (hspells : startingSpells c = spellsOf s.spells c.id ++ left) :
    Good s (learn p msg c left) ∧ (learn p msg c left).accountId = p.accountId ∧
      (learn p msg c left).claims = p.sent.filterMap createdOf ++ [c] := by
  unfold Approach.learn
  split_ifs with hleft
  · rw [hleft, List.append_nil] at hspells
    exact ⟨hp.wait (Answered.created c hc hmatches hspells.symm), rfl, rfl⟩
  · exact ⟨hp.wait ⟨hleft, hvalid, hc, hmatches, hspells⟩, rfl, rfl⟩

theorem Advances.of_inserted (hs : Sound s) (hp : Good s p) {msg : CharacterCreationRequestMessage}
    (hphase : p.phase = .inserting msg) (hvalid : ValidName msg.name) (hstorable : Storable msg.name) :
    Advances s p (inserted s p msg failure) := by
  have hclaims : p.claims = p.sent.filterMap createdOf := by
    rw [Player.claims, hphase]
    exact List.append_nil _
  -- whatever fails, the session may forget the character
  have hfailed {shared : Shared} (hsound : Sound shared) (hext : Extends [] s shared) :
      Advances s p (shared, { p with phase := .telling msg 2 none }) := by
    refine ⟨hsound, (hp.mono hext fun _ _ d hd => absurd hd List.not_mem_nil).wait (Answered.failed hvalid), ?_, rfl,
      .inl (Player.claims_wait_sublist (List.nil_sublist _))⟩
    rw [hphase]
    exact hext
  unfold inserted
  by_cases hquery : failure = some .query
  · rw [if_pos hquery]
    exact hfailed hs (Extends.refl _ s)
  · rw [if_neg hquery]
    rcases s.characters.insertCharacter_cases s.accounts p.accountId msg.name (Int32.ofNat msg.breed.toNat)
      (if msg.sex then 1 else 0) msg.colors with ⟨t, hinsert, hwho⟩ | ⟨c, t, hinsert, hc, hwho, haccount⟩
    · rw [hinsert]
      exact hfailed (hs.of_who hwho) (Extends.of_who _ hwho)
    · rw [hinsert]
      have hnew : ∀ d ∈ s.characters.who, d.id ≠ c.id := by
        intro d hd
        rw [hc]
        exact Int.ne_of_lt (Characters.lt_nextId hd)
      have hmatches : Matches p.accountId msg c := by
        rw [hc]
        exact ⟨rfl, rfl, rfl, rfl, rfl⟩
      have hnamed : ValidName c.name ∧ Storable c.name ∧ c.accountId ∈ s.accounts := by
        rw [hmatches.name, hmatches.accountId]
        exact ⟨hvalid, hstorable, haccount⟩
      have hsound : Sound { s with characters := t } := hs.insert hwho hnew hnamed
      have hext : Extends [] s { s with characters := t } :=
        ⟨List.Subset.refl _, fun d hd => hwho ▸ List.mem_append_left _ hd, fun _ _ _ => rfl⟩
      show Advances s p (if failure.isSome = true then _ else _)
      split_ifs
      · exact hfailed hsound hext
      · have hin : c ∈ t.who := by
          rw [hwho]
          simp
        have hspells : startingSpells c = spellsOf s.spells c.id ++ startingSpells c := by
          rw [hs.spellsOf_eq_nil hnew, List.nil_append]
        have hp' : Good { s with characters := t } p := hp.mono hext fun _ _ d hd => absurd hd List.not_mem_nil
        obtain ⟨hgood, haccount, hlearn⟩ := hp'.learn hvalid hin hmatches hspells
        refine ⟨hsound, hgood, ?_, haccount, .inr ⟨c, ?_, hnew⟩⟩
        · rw [hphase]
          exact hext
        · rw [hlearn, hclaims]

/-- The next spell of a character that is there. -/
theorem Sound.learn (hs : Sound s) {c : Identity} {row : SpellRow} {left : List SpellRow} (hc : c ∈ s.characters.who)
    (hspells : startingSpells c = spellsOf s.spells c.id ++ row :: left) :
    Sound { s with spells := insertSpell s.spells row } ∧
      Extends [c] s { s with spells := insertSpell s.spells row } ∧
      startingSpells c = spellsOf (insertSpell s.spells row) c.id ++ left := by
  have hrow : row.characterId = c.id := characterId_of_mem_startingSpells (by rw [hspells]; simp)
  have hthis : spellsOf (insertSpell s.spells row) c.id = spellsOf s.spells c.id ++ [row] :=
    spellsOf_insertSpell hspells rfl
  have hother (id : Int) (hid : c.id ≠ id) : spellsOf (insertSpell s.spells row) id = spellsOf s.spells id :=
    spellsOf_insertSpell_of_ne (hrow ▸ hid)
  have hsplit : startingSpells c = spellsOf (insertSpell s.spells row) c.id ++ left := by
    rw [hthis, List.append_assoc]
    exact hspells
  refine ⟨⟨hs.named, fun d hd => ?_, fun r hr => ?_, fun book => ?_⟩,
    ⟨List.Subset.refl _, List.Subset.refl _, fun d _ hd => hother d.id (hd c List.mem_cons_self)⟩, hsplit⟩
  · show spellsOf (insertSpell s.spells row) d.id <+: startingSpells d
    by_cases hid : c.id = d.id
    · obtain rfl := Characters.eq_of_id hc hd hid
      exact ⟨left, hsplit.symm⟩
    · rw [hother d.id hid]
      exact hs.spells d hd
  · rcases mem_insertSpell hr with hr | rfl
    · exact hs.known r hr
    · exact ⟨c, hc, hrow.symm⟩
  · cases book
    · exact hs.books .friends
    · exact hs.books .ignored

theorem Advances.of_learnt (hs : Sound s) (hp : Good s p) (hclaims : (p.claims.map Identity.id).Nodup)
    {msg : CharacterCreationRequestMessage} {c : Identity} {left : List SpellRow}
    (hphase : p.phase = .learning msg c left) : Advances s p (learnt s p msg c failure left) := by
  have hholds := hp.phase
  unfold PhaseHolds at hholds
  rw [hphase] at hholds
  obtain ⟨hleft, hvalid, hc, hmatches, hspells⟩ := hholds
  have hheld : p.claims = p.sent.filterMap createdOf ++ [c] := by
    rw [Player.claims, hphase]
    rfl
  cases left with
  | nil => exact absurd rfl hleft
  | cons row left =>
    obtain ⟨hsound, hext, hsplit⟩ := hs.learn hc hspells
    -- of the other characters of the session, the spells stay
    have hrest : Good { s with spells := insertSpell s.spells row } { p with phase := .idle } := by
      refine (@Good.wait s p hp .idle trivial).mono hext fun d hd e he => ?_
      obtain rfl := List.mem_singleton.1 he
      have hd : d ∈ p.sent.filterMap createdOf := by simpa [Player.claims, Phase.creates] using hd
      rw [hheld, List.map_append, List.nodup_append] at hclaims
      intro hid
      exact hclaims.2.2 d.id (List.mem_map_of_mem hd) e.id (List.mem_singleton.2 rfl) hid.symm
    have hgrows : Extends p.phase.creates s { s with spells := insertSpell s.spells row } := by
      rw [hphase]
      exact hext
    show Advances s p (if failure = some .query then _ else if failure.isSome = true then _ else _)
    split_ifs with hquery hreply
    · exact .stay hs (hp.wait (Answered.failed hvalid)) rfl (Player.claims_wait_sublist (List.nil_sublist _))
    · exact ⟨hsound, hrest.wait (Answered.failed hvalid), hgrows, rfl,
        .inl (Player.claims_wait_sublist (List.nil_sublist _))⟩
    · obtain ⟨hgood, haccount, hlearn⟩ := hrest.learn hvalid hc hmatches hsplit
      refine ⟨hsound, hgood, hgrows, haccount, .inl ?_⟩
      rw [hheld, ← hlearn]
      exact List.Sublist.refl _

/-- A session says what became of its character. -/
theorem Advances.of_telling (hs : Sound s) (hp : Good s p) {msg : CharacterCreationRequestMessage} {result : UInt8}
    {character : Option Identity} (hphase : p.phase = .telling msg result character) :
    Advances s p (advance s p .sent) := by
  have hholds := hp.phase
  unfold PhaseHolds at hholds
  rw [hphase] at hholds
  have hgood : Good s (p.say (.creationResult msg result character)) :=
    hp.say hholds fun _ _ => later_of_no_list rfl
  have hclaims : (p.say (.creationResult msg result character)).claims.Sublist p.claims := by
    rw [Player.claims, Player.claims, hphase]
    show ((p.sent ++ [_]).filterMap createdOf ++ []).Sublist _
    cases character <;> simp [List.filterMap_append, createdOf, Phase.creates]
  simp only [advance, hphase]
  split_ifs with hresult
  · exact .stay hs (hgood.wait trivial) rfl hclaims
  · exact .stay hs hgood rfl hclaims

/-! ### Selections -/

theorem Advances.of_chosen (hs : Sound s) (hp : Good s p) (id : Int) : Advances s p (s, chosen s p id failure) := by
  unfold chosen
  split_ifs with hfail
  · exact .close hs hp
  · cases hrow : s.characters.getCharacterForAccount id p.accountId with
    | none => exact .stay hs (hp.say trivial fun _ _ => later_of_no_list rfl) rfl (Player.claims_say_sublist rfl)
    | some row =>
      obtain ⟨hmem, hid, haccount⟩ := Characters.getCharacterForAccount_some hrow
      have hgood : Good s (p.say (.characterSelectedSuccess row)) :=
        hp.say ⟨hmem, haccount⟩ fun _ _ => later_of_no_list rfl
      exact .stay hs (hgood.wait ⟨row.who, hmem, hid, haccount⟩) rfl (Player.claims_say_sublist rfl)

theorem Advances.of_named (hs : Sound s) (hp : Good s p) {id : Int} (hphase : p.phase = .naming id) :
    Advances s p (s, named s p id failure) := by
  have hholds := hp.phase
  unfold PhaseHolds at hholds
  rw [hphase] at hholds
  obtain ⟨c, hc, rfl, haccount⟩ := hholds
  unfold named
  split_ifs with hfail
  · exact .close hs hp
  · obtain ⟨row, hrow, rfl⟩ := Characters.getCharacter_of_mem hc
    rw [hrow]
    refine .stay hs ⟨hp.told, hp.later, trivial, fun id hid => ?_⟩
      rfl (Player.claims_wait_sublist (List.nil_sublist _))
    obtain rfl := Option.some.inj hid
    exact ⟨row.who, hc, rfl, haccount, rfl⟩

/-! ### Friends -/

theorem Advances.of_sought (hs : Sound s) (hp : Good s p) (book : Book) (name : String) :
    Advances s p (s, sought s p book name failure) := by
  unfold sought
  split_ifs with hfail
  · exact .close hs hp
  · cases htarget : s.characters.findAccountByCharacterName name with
    | none => exact .wait hs hp rfl trivial
    | some target =>
      show Advances s p (s, if target ≠ p.accountId then _ else _)
      split_ifs with hself
      · obtain ⟨c, hc, -, haccount⟩ := Characters.findAccountByCharacterName_some htarget
        exact .wait hs hp rfl ⟨hself, c, hc, haccount⟩
      · exact .wait hs hp rfl trivial

/-- The table of one of the lists. -/
theorem Sound.setPairs (hs : Sound s) (book : Book) {pairs : List (Int × Int)}
    (hpairs : pairs.Nodup ∧ ∀ q ∈ pairs, q.1 ≠ q.2 ∧ q.1 ∈ s.accounts ∧ q.2 ∈ s.accounts) :
    Sound (s.setPairs book pairs) ∧ Extends [] s (s.setPairs book pairs) := by
  cases book
  all_goals
    refine ⟨⟨hs.named, hs.spells, hs.known, fun other => ?_⟩,
      ⟨List.Subset.refl _, List.Subset.refl _, fun _ _ _ => rfl⟩⟩
    cases other
  · exact hpairs
  · exact hs.books .ignored
  · exact hs.books .friends
  · exact hpairs

theorem Advances.of_change (hs : Sound s) (hp : Good s p) (book : Book) {pairs : List (Int × Int)} {r : Reply}
    (hcreates : p.phase.creates = [])
    (hpairs : pairs.Nodup ∧ ∀ q ∈ pairs, q.1 ≠ q.2 ∧ q.1 ∈ s.accounts ∧ q.2 ∈ s.accounts)
    (hcreated : createdOf r = none) (htold : ∀ s' : Shared, Told s' p.accountId r)
    (hlist : listOf r = none) : Advances s p (change s p book pairs r failure) := by
  obtain ⟨hsound, hext⟩ := hs.setPairs book hpairs
  have hp' : Good (s.setPairs book pairs) p := hp.mono hext fun _ _ d hd => absurd hd List.not_mem_nil
  rw [← hcreates] at hext
  unfold change
  split_ifs with hquery hreply
  · exact .close hs hp
  · exact ⟨hsound, hp'.close, hext, rfl, .inl (Player.claims_wait_sublist (List.nil_sublist _))⟩
  · exact ⟨hsound, hp'.say (htold _) fun _ _ => later_of_no_list hlist, hext, rfl,
      .inl (Player.claims_say_sublist hcreated)⟩

theorem Advances.of_adding (hs : Sound s) (hp : Good s p) (haccount : p.accountId ∈ s.accounts) {book : Book}
    {target : Int} (hphase : p.phase = .adding book target) :
    Advances s p
      (change s p book (addPair (s.pairs book) (p.accountId, target)) (.emptyList book) failure) := by
  have hholds := hp.phase
  unfold PhaseHolds at hholds
  rw [hphase] at hholds
  obtain ⟨hne, c, hc, rfl⟩ := hholds
  obtain ⟨hnodup, hpairs⟩ := hs.books book
  have hcreates : p.phase.creates = [] := by
    rw [hphase]
    rfl
  refine .of_change hs hp book hcreates ⟨hnodup.insert, fun q hq => ?_⟩ rfl (fun _ => trivial) rfl
  rcases List.mem_insert_iff.1 hq with rfl | hq
  · exact ⟨hne.symm, haccount, (hs.named c hc).2.2⟩
  · exact hpairs q hq

theorem Advances.of_removing (hs : Sound s) (hp : Good s p) {book : Book} {target : Int}
    (hphase : p.phase = .removing book target) :
    Advances s p
      (change s p book (removePair (s.pairs book) (p.accountId, target))
        (if book = .friends then .friendDeleteResult else .emptyList book) failure) := by
  obtain ⟨hnodup, hpairs⟩ := hs.books book
  have hcreates : p.phase.creates = [] := by
    rw [hphase]
    rfl
  have hleft : (removePair (s.pairs book) (p.accountId, target)).Nodup ∧
      ∀ q ∈ removePair (s.pairs book) (p.accountId, target), q.1 ≠ q.2 ∧ q.1 ∈ s.accounts ∧ q.2 ∈ s.accounts :=
    ⟨hnodup.filter _, fun q hq => hpairs q (List.mem_of_mem_filter hq)⟩
  cases book
  · exact .of_change hs hp .friends hcreates hleft rfl (fun _ => trivial) rfl
  · exact .of_change hs hp .ignored hcreates hleft rfl (fun _ => trivial) rfl

theorem Advances.of_answer (hs : Sound s) (hp : Good s p) (haccount : p.accountId ∈ s.accounts)
    (hclaims : (p.claims.map Identity.id).Nodup) : Advances s p (answer s p failure) := by
  have hholds := hp.phase
  unfold PhaseHolds at hholds
  unfold answer
  cases hphase : p.phase with
  | listing => exact .of_listed hs hp
  | checking msg =>
    rw [hphase] at hholds
    exact .of_checked hs hp hholds
  | inserting msg =>
    rw [hphase] at hholds
    exact .of_inserted hs hp hphase hholds.1 hholds.2
  | learning msg c left => exact .of_learnt hs hp hclaims hphase
  | choosing id => exact .of_chosen hs hp id
  | naming id => exact .of_named hs hp hphase
  | seeking book name => exact .of_sought hs hp book name
  | adding book target => exact .of_adding hs hp haccount hphase
  | removing book target => exact .of_removing hs hp hphase
  | idle | telling msg result character | closed => exact .stay hs hp rfl (List.Sublist.refl _)

theorem Advances.of_advance (hs : Sound s) (hp : Good s p) (haccount : p.accountId ∈ s.accounts)
    (hclaims : (p.claims.map Identity.id).Nodup) (w : Wake) : Advances s p (advance s p w) := by
  have hstay : Advances s p (s, p) := .stay hs hp rfl (List.Sublist.refl _)
  cases w with
  | receive request =>
    simp only [advance]
    split_ifs
    · cases request with
      | none => exact .close hs hp
      | some request => exact .of_begin hs hp request
    · exact hstay
  | query failure => exact .of_answer hs hp haccount hclaims
  | sent =>
    cases hphase : p.phase with
    | telling msg result character => exact .of_telling hs hp hphase
    | _ =>
      simp only [advance, hphase]
      exact hstay
  | fail => exact .close hs hp

end Steps

/-! ### Runs -/

/-- What holds of the system between two events. -/
structure Inv (s : System) : Prop where
  sound : Sound s.shared
  account : ∀ p ∈ s.sessions, p.accountId ∈ s.shared.accounts
  good : ∀ p ∈ s.sessions, Good s.shared p
  claims : ((s.sessions.flatMap Player.claims).map Identity.id).Nodup

variable {s : System}

theorem sound_start : Sound System.start.shared where
  named := fun _ h => absurd h List.not_mem_nil
  spells := fun _ h => absurd h List.not_mem_nil
  known := fun _ h => absurd h List.not_mem_nil
  books := fun book => by
    cases book
    all_goals exact ⟨List.nodup_nil, fun _ h => absurd h List.not_mem_nil⟩

theorem inv_start : Inv System.start where
  sound := sound_start
  account := fun _ h => absurd h List.not_mem_nil
  good := fun _ h => absurd h List.not_mem_nil
  claims := List.nodup_nil

/-- What changes the tables without a session. -/
theorem Inv.shared (hs : Inv s) {shared : Shared} (hsound : Sound shared) (hext : Extends [] s.shared shared) :
    Inv { s with shared } where
  sound := hsound
  account := fun p hp => hext.accounts (hs.account p hp)
  good := fun p hp => (hs.good p hp).mono hext fun _ _ _ hd => absurd hd List.not_mem_nil
  claims := hs.claims

/-- One session has moved on. -/
theorem Inv.replace (hs : Inv s) {l₁ l₂ : List Player} {p : Player} {r : Shared × Player}
    (hsessions : s.sessions = l₁ ++ p :: l₂) (hr : Advances s.shared p r) :
    Inv { shared := r.1, sessions := l₁ ++ r.2 :: l₂ } := by
  have hp : p ∈ s.sessions := by
    rw [hsessions]
    simp
  have hother : ∀ q ∈ l₁ ++ l₂, q ∈ s.sessions := by
    intro q hq
    rw [hsessions]
    simp only [List.mem_append, List.mem_cons] at hq ⊢
    tauto
  have hnew : ∀ q ∈ l₁ ++ r.2 :: l₂, q = r.2 ∨ q ∈ l₁ ++ l₂ := by
    intro q hq
    simp only [List.mem_append, List.mem_cons] at hq ⊢
    tauto
  -- whose turn it is does not matter for which characters are claimed
  have hperm (q : Player) : ((l₁ ++ q :: l₂).flatMap Player.claims).Perm
      (q.claims ++ (l₁ ++ l₂).flatMap Player.claims) :=
    (List.perm_middle.flatMap_right _).trans (List.Perm.of_eq List.flatMap_cons)
  have hnodup : ((p.claims ++ (l₁ ++ l₂).flatMap Player.claims).map Identity.id).Nodup := by
    have hold := hs.claims
    rw [hsessions] at hold
    exact ((hperm p).map _).nodup_iff.1 hold
  refine ⟨hr.sound, fun q hq => ?_, fun q hq => ?_, ?_⟩
  · rcases hnew q hq with rfl | hq
    · rw [hr.account]
      exact hr.grows.accounts (hs.account p hp)
    · exact hr.grows.accounts (hs.account q (hother q hq))
  · rcases hnew q hq with rfl | hq
    · exact hr.good
    · refine (hs.good q (hother q hq)).mono hr.grows fun c hc d hd => ?_
      rw [List.map_append, List.nodup_append] at hnodup
      exact hnodup.2.2 d.id (List.mem_map_of_mem (List.mem_append_right _ hd)) c.id
        (List.mem_map_of_mem (List.mem_flatMap.2 ⟨q, hq, hc⟩))
  · refine ((hperm r.2).map _).nodup_iff.2 ?_
    -- the session claims no more than before, or one character whose id is new
    rcases hr.claims with hsub | ⟨c, hc, hfresh⟩
    · exact ((hsub.append (List.Sublist.refl _)).map _).nodup hnodup
    · have hmem : ∀ d ∈ p.claims ++ (l₁ ++ l₂).flatMap Player.claims, d ∈ s.shared.characters.who := by
        intro d hd
        rcases List.mem_append.1 hd with hd | hd
        · exact (hs.good p hp).mem_who hd
        · obtain ⟨q, hq, hd⟩ := List.mem_flatMap.1 hd
          exact (hs.good q (hother q hq)).mem_who hd
      rw [hc, List.append_assoc]
      refine (List.perm_middle.map _).nodup_iff.2 ?_
      rw [List.map_cons, List.nodup_cons]
      refine ⟨fun hold => ?_, hnodup⟩
      obtain ⟨d, hd, hid⟩ := List.mem_map.1 hold
      exact hfresh d (hmem d hd) hid

theorem Inv.wake (hs : Inv s) (i : Nat) (w : Wake) : Inv (act s (.wake i w)) := by
  cases hp : s.sessions[i]? with
  | none =>
    have hstay : act s (.wake i w) = s := by
      show s.step (.wake i w) = s
      simp only [System.step, hp]
    rw [hstay]
    exact hs
  | some p =>
    obtain ⟨hi, hget⟩ := List.getElem?_eq_some_iff.1 hp
    obtain ⟨l₁, l₂, hbefore, -, hafter⟩ := @List.exists_of_set _ i (advance s.shared p w).2 s.sessions hi
    rw [hget] at hbefore
    have hmove : act s (.wake i w) =
        { shared := (advance s.shared p w).1, sessions := l₁ ++ (advance s.shared p w).2 :: l₂ } := by
      show s.step (.wake i w) = _
      simp only [System.step, hp, hafter]
    have hmem : p ∈ s.sessions := List.mem_of_getElem? hp
    have hclaims : (p.claims.map Identity.id).Nodup :=
      ((List.sublist_flatten_of_mem (List.mem_map_of_mem hmem)).map _).nodup hs.claims
    rw [hmove]
    exact hs.replace hbefore (.of_advance hs.sound (hs.good p hmem) (hs.account p hmem) hclaims w)

theorem Inv.step (hs : Inv s) (e : Event) : Inv (act s e) := by
  cases e with
  | register accountId =>
    -- a new account takes nothing away from the others
    have hsub : s.shared.accounts ⊆ s.shared.accounts.insert accountId := fun a ha => List.mem_insert_of_mem ha
    refine hs.shared ⟨fun c hc => ?_, hs.sound.spells, hs.sound.known, fun book => ?_⟩
      ⟨hsub, List.Subset.refl _, fun _ _ _ => rfl⟩
    · obtain ⟨hvalid, hstorable, haccount⟩ := hs.sound.named c hc
      exact ⟨hvalid, hstorable, hsub haccount⟩
    · have hbook := hs.sound.books book
      have hpairs (q : Int × Int) (hq : q ∈ s.shared.pairs book) :
          q.1 ≠ q.2 ∧ q.1 ∈ s.shared.accounts.insert accountId ∧ q.2 ∈ s.shared.accounts.insert accountId := by
        obtain ⟨hne, hfrom, hto⟩ := hbook.2 q hq
        exact ⟨hne, hsub hfrom, hsub hto⟩
      cases book
      · exact ⟨hbook.1, hpairs⟩
      · exact ⟨hbook.1, hpairs⟩
  | connect accountId =>
    show Inv (if accountId ∈ s.shared.accounts then _ else s)
    split_ifs with haccount
    · refine ⟨hs.sound, fun p hp => ?_, fun p hp => ?_, ?_⟩
      · rcases List.mem_append.1 hp with hp | hp
        · exact hs.account p hp
        · rw [List.mem_singleton.1 hp]
          exact haccount
      · rcases List.mem_append.1 hp with hp | hp
        · exact hs.good p hp
        · rw [List.mem_singleton.1 hp]
          exact ⟨fun _ h => absurd h List.not_mem_nil, List.Pairwise.nil, trivial, fun _ h => by cases h⟩
      · have hclaims : (s.sessions ++ [Player.start accountId]).flatMap Player.claims =
            s.sessions.flatMap Player.claims := by
          simp [Player.claims, Player.start, Phase.creates]
        exact hclaims.symm ▸ hs.claims
    · exact hs
  | wake i w => exact hs.wake i w
  | amend id level mapId cellId direction =>
    have hwho := s.shared.characters.who_amend id level mapId cellId direction
    exact hs.shared (hs.sound.of_who hwho) (Extends.of_who [] hwho)

theorem inv_run (es : List Event) : Inv (after System.start es) :=
  (along_true.invariant (fun _ e hs _ => hs.step e) inv_start).2

/-! ### Results -/

/-- What sessions are told of the characters they create, and what there is of those that they are not told of. -/
structure CreationsTold (s : System) : Prop where
  answered : ∀ p ∈ s.sessions, ∀ msg result character, .creationResult msg result character ∈ p.sent →
    Answered s.shared p.accountId msg result character
  once : (s.sessions.flatMap fun p => p.sent.filterMap createdOf).Pairwise fun c d => c.id ≠ d.id ∧ c.name ≠ d.name
  rows : ∀ c ∈ s.shared.characters.who, ValidName c.name ∧ Storable c.name ∧ c.accountId ∈ s.shared.accounts ∧
    spellsOf s.shared.spells c.id <+: startingSpells c

/-- What a session is told of a creation is true, for good, and no two of them are told of the same character. -/
theorem creations_told (es : List Event) : CreationsTold (after System.start es) := by
  have h := inv_run es
  generalize after System.start es = s at h
  refine ⟨fun p hp msg result character hr => (h.good p hp).told _ hr, ?_, fun c hc => ?_⟩
  · have hclaims : (s.sessions.flatMap Player.claims).Pairwise fun c d => c.id ≠ d.id := List.pairwise_map.1 h.claims
    have hsub : (s.sessions.flatMap fun p => p.sent.filterMap createdOf).Sublist (s.sessions.flatMap Player.claims) :=
      List.Sublist.flatMap_right s.sessions fun p _ => List.sublist_append_left _ _
    refine (hclaims.sublist hsub).imp_of_mem fun {c d} hc hd hid => ⟨hid, fun hname => ?_⟩
    have hmem : ∀ e ∈ s.sessions.flatMap fun p => p.sent.filterMap createdOf, e ∈ s.shared.characters.who := by
      intro e he
      obtain ⟨p, hp, he⟩ := List.mem_flatMap.1 he
      exact (h.good p hp).mem_who (List.mem_append_left _ he)
    rw [List.inj_on_of_nodup_map Characters.nodup_names (hmem c hc) (hmem d hd) hname] at hid
    exact hid rfl
  · obtain ⟨hvalid, hstorable, haccount⟩ := h.sound.named c hc
    exact ⟨hvalid, hstorable, haccount, h.sound.spells c hc⟩

/-- What a session sees of its account. -/
structure ApproachesOwn (s : System) (p : Player) : Prop where
  lists : ∀ rows, .charactersList rows ∈ p.sent →
    (∀ row ∈ rows, Owns s.shared p.accountId row) ∧ rows.Pairwise fun row row' => row.who.id < row'.who.id
  complete : p.sent.Pairwise fun r r' => ∀ c ∈ createdOf r, ∀ rows ∈ listOf r', ∃ row ∈ rows, row.who = c
  selections : ∀ row, .characterSelectedSuccess row ∈ p.sent → Owns s.shared p.accountId row
  selected : ∀ id, p.characterId = some id →
    ∃ c ∈ s.shared.characters.who, c.id = id ∧ c.accountId = p.accountId ∧ p.characterName = some c.name

/-- A session lists and plays its own characters, among them those it was told of, and nobody befriends himself. -/
theorem approach_own (es : List Event) :
    (∀ p ∈ (after System.start es).sessions, ApproachesOwn (after System.start es) p) ∧
      ∀ book, ((after System.start es).shared.pairs book).Nodup ∧
        ∀ q ∈ (after System.start es).shared.pairs book, q.1 ≠ q.2 ∧
          q.1 ∈ (after System.start es).shared.accounts ∧ q.2 ∈ (after System.start es).shared.accounts := by
  have h := inv_run es
  refine ⟨fun p hp => ?_, h.sound.books⟩
  have hgood := h.good p hp
  exact ⟨fun rows hr => hgood.told _ hr, hgood.later, fun row hr => hgood.told _ hr, hgood.selected⟩

end Otomai.World.Approach
