import Otomai.World.Actors

/-!
# Dialogues with NPCs

A dialogue is opened with an NPC of the map, and each reply leads to its next message.  When there is none, the
dialogue is over and the quests of the character are told of it.

* `Talking`: what the messages and the answers tell of the dialogue that is open.
* `dispatch_knows`: the session keeps that dialogue.
* `followed_iff`: a dialogue is over only where it was followed to its end, if and only if nobody replies what was not
  offered.
-/

namespace Otomai.Npc

open DataReader (Value)
open World (NpcSpawn npcContextualId)

/-! ### Game data -/

/-- What the database holds of the NPCs: the spawns of each map, and the object of each NPC that has one.  The source
takes a failed query for an NPC without an object; here the queries of objects succeed, or those of an NPC all
fail. -/
structure Database where
  spawnsForMap : Int64 → List NpcSpawn
  npcs : Int32 → Option Value

namespace Database

variable (db : Database) (npcId : Int32)

/-- `dialogMessages` and `dialogReplies`, if both are there. -/
def dialogs : Option (List Value × List Value) := do
  let npcData ← db.npcs npcId
  let messages ← (npcData.get? "dialogMessages").bind Value.asArray
  let replies ← (npcData.get? "dialogReplies").bind Value.asArray
  pure (messages, replies)

/-- How many messages there are. -/
def messageCount : Nat := (db.dialogs npcId).elim 0 fun d => d.1.length

end Database

/-- The numbers in a list of replies. -/
def replyList (replies : Value) : List Int32 := (replies.asArray.getD []).filterMap fun v => v.asI64.map Int64.toInt32

def messageId (messages : List Value) (index : Nat) : Int32 :=
  (((messages[index]?.bind Value.asArray).bind List.head?).bind Value.asI64).elim 0 Int64.toInt32

def repliesAt (replies : List Value) (index : Nat) : List Int32 := replies[index]?.elim [] replyList

def getNpcDialog (db : Database) (npcId : Int32) (index : Nat) : Int32 × List Int32 :=
  match db.dialogs npcId with
  | some (messages, replies) => (messageId messages index, repliesAt replies index)
  | none => (0, [])

/-! ### The session -/

structure NpcDialogState where
  npcId : Int32
  currentMessageIndex : Nat
  deriving DecidableEq, Repr

structure PlayerSession where
  characterId : Option Int64
  mapId : Option Int64
  dialog : Option NpcDialogState
  deriving DecidableEq, Repr

def PlayerSession.new : PlayerSession := ⟨none, none, none⟩

/-- What a client sends.  Of all other messages, some choose a character or lead to a map, and none of them touches
the dialogue. -/
inductive Message where
  | npcGenericActionRequest (npcId : Int32) (npcActionId : UInt8)
  | npcDialogReply (replyId : Int32)
  | leaveDialogRequest
  | selectCharacter (characterId : Int64)
  | enterMap (mapId : Int64)
  deriving DecidableEq, Repr

/-- What is sent, and the call of `check_talk_to_npc_objective`, the handler of the quest event that an NPC was talked
to. -/
inductive Output where
  | npcDialogCreation (mapId : Int64) (npcId : Int32)
  | npcDialogQuestion (messageId : Int32) (visibleReplies : List Int32)
  | leaveDialog (dialogType : UInt8)
  | checkTalkToNpcObjective (characterId : Int64) (npcId : Int32)
  deriving DecidableEq, Repr

def question (dialog : Int32 × List Int32) : Output := .npcDialogQuestion dialog.1 dialog.2

def handleNpcAction (db : Database) (currentMapId : Int64) (npcId : Int32) (npcActionId : UInt8) :
    Option NpcDialogState × List Output :=
  match (db.spawnsForMap currentMapId).find? fun s => npcContextualId s.id == npcId.toFloat || s.npcId == npcId with
  | some spawn =>
    if npcActionId = 3 then
      (some { npcId := spawn.npcId, currentMessageIndex := 0 },
        [.npcDialogCreation currentMapId spawn.npcId, question (getNpcDialog db spawn.npcId 0)])
    else (none, [])
  | none => (none, [])

/-- The next message, if the reply is one of the current message and there is a message behind it. -/
def nextMessage (db : Database) (dialog : NpcDialogState) (replyId : Int32) : Option (Int32 × List Int32) := do
  let (messages, replies) ← db.dialogs dialog.npcId
  let currentReplies ← replies[dialog.currentMessageIndex]?
  if replyId ∈ replyList currentReplies ∧ dialog.currentMessageIndex + 1 < messages.length then
    some (messageId messages (dialog.currentMessageIndex + 1), repliesAt replies (dialog.currentMessageIndex + 1))
  else none

/-- The state of the dialogue if it continues; else it is closed. -/
def handleNpcDialogReply (db : Database) (dialog : NpcDialogState) (replyId : Int32) :
    Option NpcDialogState × List Output :=
  match nextMessage db dialog replyId with
  | some next => (some { dialog with currentMessageIndex := dialog.currentMessageIndex + 1 }, [question next])
  | none => (none, [.leaveDialog 2])

/-- The part of `dispatch` that has to do with dialogues.  A query of the spawns or a message that fails ends the
session: what has been done until then is the beginning of what is described here. -/
def dispatch (db : Database) (ps : PlayerSession) : Message → PlayerSession × List Output
  | .npcGenericActionRequest npcId npcActionId =>
    match ps.characterId, ps.mapId with
    | some _, some mapId =>
      let (dialog, out) := handleNpcAction db mapId npcId npcActionId
      ({ ps with dialog }, out)
    | _, _ => (ps, [])
  | .npcDialogReply replyId =>
    match ps.characterId, ps.dialog with
    | some characterId, some dialog =>
      match handleNpcDialogReply db dialog replyId with
      | (some next, out) => ({ ps with dialog := some next }, out)
      | (none, out) => ({ ps with dialog := none }, out ++ [.checkTalkToNpcObjective characterId dialog.npcId])
    | _, _ => (ps, [])
  | .leaveDialogRequest =>
    match ps.dialog with
    | some _ => ({ ps with dialog := none }, [.leaveDialog 2])
    | none => (ps, [])
  | .selectCharacter characterId => ({ ps with characterId := some characterId }, [])
  | .enterMap mapId => ({ ps with mapId := some mapId }, [])

/-! ### Histories -/

/-- What was received and what was done about it, the latest first. -/
abbrev History := List (Message × List Output)

/-- Sessions with their history. -/
def step (db : Database) (s : PlayerSession × History) (m : Message) : PlayerSession × History :=
  ((dispatch db s.1 m).1, (m, (dispatch db s.1 m).2) :: s.2)

def run (db : Database) (s : PlayerSession × History) (messages : List Message) : PlayerSession × History :=
  messages.foldl (step db) s

/-- The map that was entered last. -/
def playerMap : History → Option Int64
  | [] => none
  | (.enterMap mapId, _) :: _ => some mapId
  | _ :: h => playerMap h

/-- A dialogue with an NPC is open, after so many replies, each of which was offered by the message before; the last
message offers `visible`. -/
inductive Talking (db : Database) : History → Int32 → Nat → List Int32 → Prop
  | opened {h : History} {requested npcId : Int32} {action : UInt8} {mapId : Int64} {id : Int32}
    {visible : List Int32}
      (hmap : playerMap h = some mapId) (hspawn : ∃ spawn ∈ db.spawnsForMap mapId, spawn.npcId = npcId) :
      Talking db ((.npcGenericActionRequest requested action,
        [.npcDialogCreation mapId npcId, .npcDialogQuestion id visible]) :: h) npcId 0 visible
  | replied {h : History} {npcId : Int32} {n : Nat} {visible visible' : List Int32} {replyId id : Int32}
      (hbefore : Talking db h npcId n visible) (hoffered : replyId ∈ visible) :
      Talking db ((.npcDialogReply replyId, [.npcDialogQuestion id visible']) :: h) npcId (n + 1) visible'
  | selected {h : History} {npcId : Int32} {n : Nat} {visible : List Int32} {characterId : Int64}
      (hbefore : Talking db h npcId n visible) : Talking db ((.selectCharacter characterId, []) :: h) npcId n visible
  | entered {h : History} {npcId : Int32} {n : Nat} {visible : List Int32} {mapId : Int64}
      (hbefore : Talking db h npcId n visible) : Talking db ((.enterMap mapId, []) :: h) npcId n visible

/-- The dialogue is at its last message, and the reply is one that it offers. -/
def Finishes (db : Database) (h : History) (m : Message) (npcId : Int32) : Prop :=
  ∃ n visible replyId, Talking db h npcId n visible ∧ n + 1 = db.messageCount npcId ∧ m = .npcDialogReply replyId ∧
    replyId ∈ visible

/-- Whenever the quests were told of a dialogue, it had been followed to its end. -/
def Followed (db : Database) : History → Prop
  | [] => True
  | (m, out) :: h =>
    (∀ characterId npcId, .checkTalkToNpcObjective characterId npcId ∈ out → Finishes db h m npcId) ∧ Followed db h

/-- A reply to a dialogue is one that is offered, by an NPC that has something to say. -/
def Offered (db : Database) (ps : PlayerSession) (m : Message) : Prop :=
  ∀ replyId dialog, m = .npcDialogReply replyId → ps.dialog = some dialog →
    replyId ∈ (getNpcDialog db dialog.npcId dialog.currentMessageIndex).2 ∧ 0 < db.messageCount dialog.npcId

def AllOffered (db : Database) : PlayerSession → List Message → Prop
  | _, [] => True
  | ps, m :: messages => Offered db ps m ∧ AllOffered db (dispatch db ps m).1 messages

/-! ### What the session knows -/

section

variable {db : Database} {ps : PlayerSession} {h : History} {dialog : NpcDialogState}

/-- The reply is looked up among those that the current message has offered. -/
theorem nextMessage_eq (replyId : Int32) :
    nextMessage db dialog replyId =
      if replyId ∈ (getNpcDialog db dialog.npcId dialog.currentMessageIndex).2 ∧
          dialog.currentMessageIndex + 1 < db.messageCount dialog.npcId then
        some (getNpcDialog db dialog.npcId (dialog.currentMessageIndex + 1))
      else none := by
  unfold nextMessage getNpcDialog Database.messageCount
  cases db.dialogs dialog.npcId with
  | none => simp
  | some d =>
    obtain ⟨messages, replies⟩ := d
    unfold repliesAt
    cases hcurrent : replies[dialog.currentMessageIndex]? with
    | none => simp [hcurrent]
    | some current => simp [hcurrent]

/-- The session and what was said agree on the map and on the dialogue that is open. -/
structure Knows (db : Database) (ps : PlayerSession) (h : History) : Prop where
  mapId : ps.mapId = playerMap h
  present : ps.dialog.isSome → ps.characterId.isSome ∧ ps.mapId.isSome
  within : ∀ dialog, ps.dialog = some dialog →
    dialog.currentMessageIndex = 0 ∨ dialog.currentMessageIndex < db.messageCount dialog.npcId
  talking : ∀ dialog, ps.dialog = some dialog →
    Talking db h dialog.npcId dialog.currentMessageIndex (getNpcDialog db dialog.npcId dialog.currentMessageIndex).2
  dialog : ∀ {npcId n visible}, Talking db h npcId n visible →
    ps.dialog = some ⟨npcId, n⟩ ∧ visible = (getNpcDialog db npcId n).2

theorem knows_new : Knows db .new [] where
  mapId := rfl
  present h := by cases h
  within _ h := by cases h
  talking _ h := by cases h
  dialog h := by cases h

/-- Without a dialogue there is only the map to agree on. -/
theorem Knows.of_none (hmap : ps.mapId = playerMap h) (hnone : ps.dialog = none)
    (hsilent : ∀ npcId n visible, ¬Talking db h npcId n visible) : Knows db ps h where
  mapId := hmap
  present hsome := by rw [hnone] at hsome; cases hsome
  within _ hsome := by rw [hnone] at hsome; cases hsome
  talking _ hsome := by rw [hnone] at hsome; cases hsome
  dialog ht := absurd ht (hsilent _ _ _)

/-- What an action can do: nothing without a map, else it opens a dialogue with an NPC of the map or closes the last
one. -/
theorem action_cases (requested : Int32) (action : UInt8) :
    (dispatch db ps (.npcGenericActionRequest requested action) = (ps, []) ∧
      (ps.characterId = none ∨ ps.mapId = none)) ∨
    dispatch db ps (.npcGenericActionRequest requested action) = ({ ps with dialog := none }, []) ∨
    ∃ characterId mapId, ps.characterId = some characterId ∧ ps.mapId = some mapId ∧
      ∃ spawn ∈ db.spawnsForMap mapId,
        dispatch db ps (.npcGenericActionRequest requested action) =
          ({ ps with dialog := some ⟨spawn.npcId, 0⟩ },
            [.npcDialogCreation mapId spawn.npcId, question (getNpcDialog db spawn.npcId 0)]) := by
  cases hcharacter : ps.characterId with
  | none => exact .inl ⟨by simp only [dispatch, hcharacter], .inl rfl⟩
  | some characterId =>
    cases hmap : ps.mapId with
    | none => exact .inl ⟨by simp only [dispatch, hcharacter, hmap], .inr rfl⟩
    | some mapId =>
      refine .inr ?_
      simp only [dispatch, hcharacter, hmap, handleNpcAction]
      split
      · next spawn hfind =>
        by_cases haction : action = 3
        · rw [if_pos haction]
          exact .inr ⟨characterId, mapId, rfl, rfl, spawn, List.mem_of_find?_eq_some hfind, rfl⟩
        · rw [if_neg haction]
          exact .inl rfl
      · exact .inl rfl

/-- What a reply can do: the dialogue continues with its next message, or it is over and the quests are told of it. -/
theorem reply_eq (hknows : Knows db ps h) (hdialog : ps.dialog = some dialog) (replyId : Int32) :
    ∃ characterId, dispatch db ps (.npcDialogReply replyId) =
      if replyId ∈ (getNpcDialog db dialog.npcId dialog.currentMessageIndex).2 ∧
          dialog.currentMessageIndex + 1 < db.messageCount dialog.npcId then
        ({ ps with dialog := some ⟨dialog.npcId, dialog.currentMessageIndex + 1⟩ },
          [question (getNpcDialog db dialog.npcId (dialog.currentMessageIndex + 1))])
      else
        ({ ps with dialog := none }, [.leaveDialog 2, .checkTalkToNpcObjective characterId dialog.npcId]) := by
  obtain ⟨characterId, hcharacter⟩ := Option.isSome_iff_exists.1 (hknows.present (by rw [hdialog]; rfl)).1
  refine ⟨characterId, ?_⟩
  simp only [dispatch, hcharacter, hdialog, handleNpcDialogReply, nextMessage_eq]
  by_cases hnext : replyId ∈ (getNpcDialog db dialog.npcId dialog.currentMessageIndex).2 ∧
      dialog.currentMessageIndex + 1 < db.messageCount dialog.npcId
  · rw [if_pos hnext, if_pos hnext]
  · rw [if_neg hnext, if_neg hnext]
    rfl

/-- The session keeps the dialogue that the messages tell of. -/
theorem dispatch_knows (hknows : Knows db ps h) (m : Message) :
    Knows db (dispatch db ps m).1 ((m, (dispatch db ps m).2) :: h) := by
  cases m with
  | npcGenericActionRequest requested action =>
    obtain ⟨heq, hnone⟩ | heq | ⟨characterId, mapId, hcharacter, hmap, spawn, hspawn, heq⟩ :=
      @action_cases db ps requested action
    · rw [heq]
      refine .of_none hknows.mapId ?_ fun npcId n visible ht => by cases ht
      by_contra hsome
      obtain ⟨hc, hm⟩ := hknows.present (Option.isSome_iff_ne_none.2 hsome)
      rcases hnone with hnone | hnone
      · rw [hnone] at hc; cases hc
      · rw [hnone] at hm; cases hm
    · rw [heq]
      exact .of_none hknows.mapId rfl fun npcId n visible ht => by cases ht
    · rw [heq]
      refine ⟨hknows.mapId, fun _ => ⟨by rw [hcharacter]; rfl, by rw [hmap]; rfl⟩, ?_, ?_, ?_⟩
      · rintro _ ⟨⟩
        exact .inl rfl
      · rintro _ ⟨⟩
        exact .opened (hknows.mapId.symm.trans hmap) ⟨spawn, hspawn, rfl⟩
      · intro npcId n visible ht
        cases ht
        exact ⟨rfl, rfl⟩
  | npcDialogReply replyId =>
    cases hdialog : ps.dialog with
    | none =>
      have heq : dispatch db ps (.npcDialogReply replyId) = (ps, []) := by
        simp only [dispatch, hdialog]
        cases ps.characterId <;> rfl
      rw [heq]
      exact .of_none hknows.mapId hdialog fun npcId n visible ht => by cases ht
    | some dialog =>
      obtain ⟨characterId, heq⟩ := reply_eq hknows hdialog replyId
      rw [heq]
      split
      · next hnext =>
        refine ⟨hknows.mapId, fun _ => hknows.present (by rw [hdialog]; rfl), ?_, ?_, ?_⟩
        · rintro _ ⟨⟩
          exact .inr hnext.2
        · rintro _ ⟨⟩
          exact .replied (hknows.talking dialog hdialog) hnext.1
        · intro npcId n visible ht
          cases ht with
          | replied hbefore hoffered =>
            obtain ⟨hsame, -⟩ := hknows.dialog hbefore
            rw [hdialog, Option.some.injEq] at hsame
            subst hsame
            exact ⟨rfl, rfl⟩
      · exact .of_none hknows.mapId rfl fun npcId n visible ht => by cases ht
  | leaveDialogRequest =>
    cases hdialog : ps.dialog with
    | none =>
      have heq : dispatch db ps .leaveDialogRequest = (ps, []) := by simp only [dispatch, hdialog]
      rw [heq]
      exact .of_none hknows.mapId hdialog fun npcId n visible ht => by cases ht
    | some dialog =>
      have heq : dispatch db ps .leaveDialogRequest = ({ ps with dialog := none }, [.leaveDialog 2]) := by
        simp only [dispatch, hdialog]
      rw [heq]
      exact .of_none hknows.mapId rfl fun npcId n visible ht => by cases ht
  | selectCharacter characterId =>
    refine ⟨hknows.mapId, fun hsome => ⟨rfl, (hknows.present hsome).2⟩, hknows.within, ?_, ?_⟩
    · exact fun dialog hdialog => .selected (hknows.talking dialog hdialog)
    · intro npcId n visible ht
      cases ht with
      | selected hbefore => exact hknows.dialog hbefore
  | enterMap mapId =>
    refine ⟨rfl, fun hsome => ⟨(hknows.present hsome).1, rfl⟩, hknows.within, ?_, ?_⟩
    · exact fun dialog hdialog => .entered (hknows.talking dialog hdialog)
    · intro npcId n visible ht
      cases ht with
      | entered hbefore => exact hknows.dialog hbefore

/-- A message tells the quests only of dialogues that it finishes, if and only if it is no reply that was not
offered. -/
theorem checks_iff (hknows : Knows db ps h) (m : Message) :
    (∀ characterId npcId, .checkTalkToNpcObjective characterId npcId ∈ (dispatch db ps m).2 → Finishes db h m npcId) ↔
      Offered db ps m := by
  cases m with
  | npcDialogReply replyId =>
    cases hdialog : ps.dialog with
    | none =>
      have hout : (dispatch db ps (.npcDialogReply replyId)).2 = [] := by
        simp only [dispatch, hdialog]
        cases ps.characterId <;> rfl
      simp [Offered, hout, hdialog]
    | some dialog =>
      obtain ⟨characterId, heq⟩ := reply_eq hknows hdialog replyId
      have hoffered : Offered db ps (.npcDialogReply replyId) ↔
          replyId ∈ (getNpcDialog db dialog.npcId dialog.currentMessageIndex).2 ∧
            0 < db.messageCount dialog.npcId := by
        simp [Offered, hdialog]
      rw [hoffered, heq]
      constructor
      · intro hchecks
        split at hchecks
        · next hnext => exact ⟨hnext.1, by omega⟩
        · obtain ⟨n, visible, replyId', ht, hlast, hreply, hmem⟩ :=
            hchecks characterId dialog.npcId (List.mem_cons_of_mem _ (List.mem_singleton.2 rfl))
          obtain ⟨hsame, rfl⟩ := hknows.dialog ht
          rw [hdialog, Option.some.injEq] at hsame
          have hn : dialog.currentMessageIndex = n := congrArg NpcDialogState.currentMessageIndex hsame
          obtain rfl := Message.npcDialogReply.inj hreply
          exact ⟨hn ▸ hmem, by omega⟩
      · rintro ⟨hmem, hpos⟩ c npcId hcheck
        split at hcheck
        · rw [List.mem_singleton] at hcheck
          cases hcheck
        · next hnext =>
          -- an offered reply that has no next message was given to the last one
          have hcount : db.messageCount dialog.npcId ≤ dialog.currentMessageIndex + 1 := by
            by_contra hlt
            exact hnext ⟨hmem, by omega⟩
          have hwithin := hknows.within dialog hdialog
          obtain ⟨-, rfl⟩ : c = characterId ∧ npcId = dialog.npcId := by simpa using hcheck
          exact ⟨_, _, replyId, hknows.talking dialog hdialog, by omega, rfl, hmem⟩
  | npcGenericActionRequest requested action =>
    refine iff_of_true (fun characterId npcId hcheck => ?_) fun replyId dialog hm => by cases hm
    obtain ⟨heq, -⟩ | heq | ⟨_, mapId, -, -, spawn, -, heq⟩ := @action_cases db ps requested action
    all_goals
      rw [heq] at hcheck
      simp [question] at hcheck
  | leaveDialogRequest =>
    refine iff_of_true (fun characterId npcId hcheck => ?_) fun replyId dialog hm => by cases hm
    cases hdialog : ps.dialog <;> simp [dispatch, hdialog] at hcheck
  | selectCharacter c =>
    refine iff_of_true (fun characterId npcId hcheck => ?_) fun replyId dialog hm => by cases hm
    simp [dispatch] at hcheck
  | enterMap mapId =>
    refine iff_of_true (fun characterId npcId hcheck => ?_) fun replyId dialog hm => by cases hm
    simp [dispatch] at hcheck

theorem followed_run_iff (hknows : Knows db ps h) (messages : List Message) :
    Followed db (run db (ps, h) messages).2 ↔ Followed db h ∧ AllOffered db ps messages := by
  induction messages generalizing ps h with
  | nil => simp [run, AllOffered]
  | cons m messages ih =>
    have hrun : run db (ps, h) (m :: messages) = run db (step db (ps, h) m) messages := rfl
    rw [hrun, step, ih (dispatch_knows hknows m), Followed, checks_iff hknows, AllOffered]
    tauto

end

/-- In every session, the quests are told of a dialogue only where it was followed to its end, if and only if each
reply to a dialogue is one that is offered, by an NPC that has a message. -/
theorem followed_iff (db : Database) (messages : List Message) :
    Followed db (run db (.new, []) messages).2 ↔ AllOffered db .new messages := by
  rw [followed_run_iff knows_new]
  exact and_iff_right trivial

/-- An NPC with two messages, the first of which offers the reply 10 and the second the reply 20. -/
def kerubim : Database where
  spawnsForMap _ := [{ id := 1, npcId := 5, cellId := 300, direction := 1 }]
  npcs _ := some <| .object
    [("dialogMessages", .array [.array [.number (.posInt 1)], .array [.number (.posInt 2)]]),
      ("dialogReplies", .array [.array [.number (.posInt 10)], .array [.number (.posInt 20)]])]

theorem kerubim_spawns (mapId : Int64) :
    kerubim.spawnsForMap mapId = [{ id := 1, npcId := 5, cellId := 300, direction := 1 }] := rfl

theorem kerubim_replies : (getNpcDialog kerubim 5 0).2 = [10] := by decide

/-- A reply that is not offered closes the dialogue at its first message, and the quests are told that it is over. -/
theorem followed_unoffered :
    ¬Followed kerubim (run kerubim (.new, [])
      [.selectCharacter 1, .enterMap 7, .npcGenericActionRequest 5 3, .npcDialogReply 99]).2 := by
  rw [followed_run_iff knows_new]
  simp [AllOffered, Offered, dispatch, handleNpcAction, kerubim_spawns, PlayerSession.new, kerubim_replies]

end Otomai.Npc
