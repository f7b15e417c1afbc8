import Otomai.ProtocolGen.Totality

/-!
# The registered messages

The deserializers of the messages of `protocol_registry!` and of every type they nest, as the generated modules of
`dofus-protocol` have them: the flag bytes read first and the initializers of the struct literal.  Two bodies are not
what the generator emits for a field list: `ActorRestrictionsInformations` reads three flag bytes for its twenty-one
flags, and the array `colors` of `CharacterCreationRequestMessage` is five fields here.

`fromRaw_returns_iff`: `from_raw` ends with `Ok` or `Err` unless a signed `VarInt` length in the payload is negative,
which three of the messages read.
-/

namespace Otomai.Protocol

open Wire BigEndianReader ProtocolGen

inductive ClassName where
  | protocolRequired | helloConnectMessage | identificationMessage | identificationSuccessMessage
  | identificationFailedMessage | serversListMessage | serverSelectionMessage | selectedServerDataMessage
  | authenticationTicketMessage | basicPingMessage | basicPongMessage | charactersListRequestMessage
  | characterSelectionMessage | gameContextCreateRequestMessage | characterNameSuggestionRequestMessage
  | characterCreationRequestMessage | characterStatsListMessage | inventoryContentMessage | inventoryWeightMessage
  | spellListMessage | setCharacterRestrictionsMessage | characterLoadingCompleteMessage
  | lifePointsRegenBeginMessage | serverExperienceModificatorMessage | gameContextRemoveElementMessage
  | gameMapMovementRequestMessage | gameMapMovementMessage | gameMapMovementConfirmMessage
  | gameMapMovementCancelMessage | changeMapMessage | gameMapChangeOrientationRequestMessage
  | gameMapChangeOrientationMessage | chatClientMultiMessage | chatServerMessage | chatClientPrivateMessage
  | chatServerCopyMessage | emotePlayRequestMessage | emotePlayMessage | emoteListMessage | friendsGetListMessage
  | friendAddRequestMessage | friendDeleteRequestMessage | friendDeleteResultMessage | ignoredGetListMessage
  | ignoredAddRequestMessage | ignoredDeleteRequestMessage | npcGenericActionRequestMessage
  | npcDialogCreationMessage | npcDialogQuestionMessage | npcDialogReplyMessage | leaveDialogRequestMessage
  | leaveDialogMessage | questListRequestMessage | questListMessage | questStartedMessage | questStepStartedMessage
  | questObjectiveValidatedMessage | questStepValidatedMessage | questValidatedMessage
  | gameRolePlayAttackMonsterRequestMessage | gameFightStartingMessage | gameFightJoinMessage
  | gameFightStartMessage | gameFightEndMessage | gameFightReadyMessage
  | gameFightPlacementPossiblePositionsMessage | gameFightPlacementPositionRequestMessage
  | gameFightTurnStartMessage | gameFightTurnEndMessage | gameFightTurnReadyMessage | gameFightTurnFinishMessage
  | gameFightNewRoundMessage | gameFightLeaveMessage | gameActionFightSpellCastMessage
  | gameActionFightDeathMessage | gameActionFightLifePointsLostMessage | gameActionFightPointsVariationMessage
  | sequenceStartMessage | sequenceEndMessage | gameActionFightCastRequestMessage | gameFightTurnListMessage
  | gameFightTurnReadyRequestMessage | gameFightShowFighterMessage | gameContextDestroyMessage
  | gameEntityDispositionMessage | characterLevelUpMessage | characterExperienceGainMessage | version
  | gameServerInformations | actorExtendedAlignmentInformations | characterBaseCharacteristic
  | characterSpellModification | characterCharacteristicsInformations | objectItem | spellItem
  | actorRestrictionsInformations | actorOrientation | idol | namedPartyTeam | namedPartyTeamWithOutcome
  | entityDispositionInformations | identifiedEntityDispositionInformations | fightEntityDispositionInformations
  | subEntity | entityLook | gameContextActorPositionInformations | gameContextActorInformations
  | gameRolePlayActorInformations | prismInformation | guildEmblem | allianceInformations
  | alliancePrismInformation | allianceInsiderPrismInformation | gameRolePlayPrismInformations | guildInformations
  | taxCollectorStaticInformations | taxCollectorStaticExtendedInformations | gameRolePlayTaxCollectorInformations
  | monsterInGroupLightInformations | monsterInGroupInformations | groupMonsterStaticInformations
  | alternativeMonstersInGroupLightInformations | groupMonsterStaticInformationsWithAlternatives
  | gameRolePlayGroupMonsterInformations | gameRolePlayGroupMonsterWaveInformations
  | gameRolePlayTreasureHintInformations | gameRolePlayNamedActorInformations | gameRolePlayMerchantInformations
  | humanInformations | gameRolePlayHumanoidInformations | actorAlignmentInformations
  | gameRolePlayCharacterInformations | gameRolePlayMutantInformations | gameRolePlayMountInformations
  | portalInformation | gameRolePlayPortalInformations | gameRolePlayNpcInformations | gameRolePlayNpcQuestFlag
  | gameRolePlayNpcWithQuestInformations | gameFightMinimalStats | gameFightMinimalStatsPreparation
  | gameFightAIInformations | gameFightMonsterInformations | gameFightMonsterWithAlignmentInformations
  | gameFightTaxCollectorInformations | playerStatus | gameFightFighterNamedInformations
  | gameFightMutantInformations | gameFightCharacterInformations | gameFightEntityInformation
  | gameContextBasicSpawnInformation | gameFightFighterInformations
  deriving DecidableEq, Repr

/-- The names of the polymorphic bases, as the errors of `deserialize_with_id` give them. -/
def ClassName.baseName : ClassName → String
  | .entityDispositionInformations => "EntityDispositionInformations"
  | .prismInformation => "PrismInformation"
  | .taxCollectorStaticInformations => "TaxCollectorStaticInformations"
  | .groupMonsterStaticInformations => "GroupMonsterStaticInformations"
  | .humanInformations => "HumanInformations"
  | .portalInformation => "PortalInformation"
  | .gameFightMinimalStats => "GameFightMinimalStats"
  | .gameContextActorPositionInformations => "GameContextActorPositionInformations"
  | .gameFightFighterInformations => "GameFightFighterInformations"
  | _ => ""

instance : ToString ClassName := ⟨ClassName.baseName⟩

def body : ClassName → DeserializeBody ClassName
  | .protocolRequired => ⟨0, [.call .utf]⟩
  | .helloConnectMessage => ⟨0, [.call .utf, .vector .varInt (.call .byte)]⟩
  | .identificationMessage => ⟨1, [.flag 0 0, .flag 0 1, .flag 0 2, .deserialize (some .version), .call .utf,
    .vector .varInt (.call .byte), .call .short, .call .varLong, .vector .ushort (.call .varShort)]⟩
  | .identificationSuccessMessage => ⟨1, [.flag 0 0, .flag 0 1, .flag 0 2, .call .utf, .call .utf, .call .int,
    .call .byte, .call .utf, .call .double, .call .double, .call .double, .call .byte]⟩
  | .identificationFailedMessage => ⟨0, [.call .byte]⟩
  | .serversListMessage => ⟨0, [.vector .ushort (.deserialize (some .gameServerInformations)), .call .varShort,
    .call .boolean]⟩
  | .serverSelectionMessage => ⟨0, [.call .varShort]⟩
  | .selectedServerDataMessage => ⟨0, [.call .varShort, .call .utf, .vector .ushort (.call .varShort),
    .call .boolean, .vector .varInt (.call .byte)]⟩
  | .authenticationTicketMessage => ⟨0, [.call .utf, .call .utf]⟩
  | .basicPingMessage => ⟨0, [.call .boolean]⟩
  | .basicPongMessage => ⟨0, [.call .boolean]⟩
  | .charactersListRequestMessage => ⟨0, []⟩
  | .characterSelectionMessage => ⟨0, [.call .varLong]⟩
  | .gameContextCreateRequestMessage => ⟨0, []⟩
  | .characterNameSuggestionRequestMessage => ⟨0, []⟩
  | .characterCreationRequestMessage => ⟨0, [.call .utf, .call .byte, .call .boolean, .call .int, .call .int,
    .call .int, .call .int, .call .int, .call .varShort]⟩
  | .characterStatsListMessage => ⟨0, [.deserialize (some .characterCharacteristicsInformations)]⟩
  | .inventoryContentMessage => ⟨0, [.vector .ushort (.deserialize (some .objectItem)), .call .varLong]⟩
  | .inventoryWeightMessage => ⟨0, [.call .varInt, .call .varInt, .call .varInt]⟩
  | .spellListMessage => ⟨0, [.call .boolean, .vector .ushort (.deserialize (some .spellItem))]⟩
  | .setCharacterRestrictionsMessage => ⟨0, [.call .double, .deserialize (some .actorRestrictionsInformations)]⟩
  | .characterLoadingCompleteMessage => ⟨0, []⟩
  | .lifePointsRegenBeginMessage => ⟨0, [.call .byte]⟩
  | .serverExperienceModificatorMessage => ⟨0, [.call .varShort]⟩
  | .gameContextRemoveElementMessage => ⟨0, [.call .double]⟩
  | .gameMapMovementRequestMessage => ⟨0, [.vector .ushort (.call .short), .call .double]⟩
  | .gameMapMovementMessage => ⟨0, [.vector .ushort (.call .short), .call .short, .call .double]⟩
  | .gameMapMovementConfirmMessage => ⟨0, []⟩
  | .gameMapMovementCancelMessage => ⟨0, [.call .varShort]⟩
  | .changeMapMessage => ⟨0, [.call .double, .call .boolean]⟩
  | .gameMapChangeOrientationRequestMessage => ⟨0, [.call .byte]⟩
  | .gameMapChangeOrientationMessage => ⟨0, [.deserialize (some .actorOrientation)]⟩
  | .chatClientMultiMessage => ⟨0, [.call .utf, .call .byte]⟩
  | .chatServerMessage => ⟨0, [.call .byte, .call .utf, .call .int, .call .utf, .call .double, .call .utf,
    .call .utf, .call .int]⟩
  | .chatClientPrivateMessage => ⟨0, [.call .utf, .call .utf]⟩
  | .chatServerCopyMessage => ⟨0, [.call .byte, .call .utf, .call .int, .call .utf, .call .varLong, .call .utf]⟩
  | .emotePlayRequestMessage => ⟨0, [.call .byte]⟩
  | .emotePlayMessage => ⟨0, [.call .byte, .call .double, .call .double, .call .int]⟩
  | .emoteListMessage => ⟨0, [.vector .ushort (.call .byte)]⟩
  | .friendsGetListMessage => ⟨0, []⟩
  | .friendAddRequestMessage => ⟨0, [.call .utf]⟩
  | .friendDeleteRequestMessage => ⟨0, [.call .int]⟩
  | .friendDeleteResultMessage => ⟨0, [.call .boolean, .call .utf]⟩
  | .ignoredGetListMessage => ⟨0, []⟩
  | .ignoredAddRequestMessage => ⟨0, [.call .utf, .call .boolean]⟩
  | .ignoredDeleteRequestMessage => ⟨0, [.call .int, .call .boolean]⟩
  | .npcGenericActionRequestMessage => ⟨0, [.call .int, .call .byte, .call .double]⟩
  | .npcDialogCreationMessage => ⟨0, [.call .double, .call .int]⟩
  | .npcDialogQuestionMessage => ⟨0, [.call .varInt, .vector .ushort (.call .utf), .vector .ushort (.call .varInt)]⟩
  | .npcDialogReplyMessage => ⟨0, [.call .varInt]⟩
  | .leaveDialogRequestMessage => ⟨0, []⟩
  | .leaveDialogMessage => ⟨0, [.call .byte]⟩
  | .questListRequestMessage => ⟨0, []⟩
  | .questListMessage => ⟨0, [.vector .ushort (.call .varShort), .vector .ushort (.call .varShort),
    .vector .ushort .default, .vector .ushort (.call .varShort)]⟩
  | .questStartedMessage => ⟨0, [.call .varShort]⟩
  | .questStepStartedMessage => ⟨0, [.call .varShort, .call .varShort]⟩
  | .questObjectiveValidatedMessage => ⟨0, [.call .varShort, .call .varShort]⟩
  | .questStepValidatedMessage => ⟨0, [.call .varShort, .call .varShort]⟩
  | .questValidatedMessage => ⟨0, [.call .varShort]⟩
  | .gameRolePlayAttackMonsterRequestMessage => ⟨0, [.call .double]⟩
  | .gameFightStartingMessage => ⟨0, [.call .byte, .call .varShort, .call .double, .call .double, .call .boolean]⟩
  | .gameFightJoinMessage => ⟨1, [.flag 0 0, .flag 0 1, .flag 0 2, .flag 0 3, .call .short, .call .byte]⟩
  | .gameFightStartMessage => ⟨0, [.vector .ushort (.deserialize (some .idol))]⟩
  | .gameFightEndMessage => ⟨0, [.call .int, .call .varShort, .call .short, .vector .ushort .default,
    .vector .ushort (.deserialize (some .namedPartyTeamWithOutcome))]⟩
  | .gameFightReadyMessage => ⟨0, [.call .boolean]⟩
  | .gameFightPlacementPossiblePositionsMessage => ⟨0, [.vector .ushort (.call .varShort),
    .vector .ushort (.call .varShort), .call .byte]⟩
  | .gameFightPlacementPositionRequestMessage => ⟨0, [.call .varShort]⟩
  | .gameFightTurnStartMessage => ⟨0, [.call .double, .call .varInt]⟩
  | .gameFightTurnEndMessage => ⟨0, [.call .double]⟩
  | .gameFightTurnReadyMessage => ⟨0, [.call .boolean]⟩
  | .gameFightTurnFinishMessage => ⟨0, [.call .boolean]⟩
  | .gameFightNewRoundMessage => ⟨0, [.call .varInt]⟩
  | .gameFightLeaveMessage => ⟨0, [.call .double]⟩
  | .gameActionFightSpellCastMessage => ⟨1, [.call .varShort, .call .double, .flag 0 0, .flag 0 1, .call .double,
    .call .short, .call .byte, .call .varShort, .call .short, .vector .ushort (.call .short)]⟩
  | .gameActionFightDeathMessage => ⟨0, [.call .varShort, .call .double, .call .double]⟩
  | .gameActionFightLifePointsLostMessage => ⟨0, [.call .varShort, .call .double, .call .double, .call .varInt,
    .call .varInt, .call .varInt]⟩
  | .gameActionFightPointsVariationMessage => ⟨0, [.call .varShort, .call .double, .call .double, .call .short]⟩
  | .sequenceStartMessage => ⟨0, [.call .byte, .call .double]⟩
  | .sequenceEndMessage => ⟨0, [.call .varShort, .call .double, .call .byte]⟩
  | .gameActionFightCastRequestMessage => ⟨0, [.call .varShort, .call .short]⟩
  | .gameFightTurnListMessage => ⟨0, [.vector .ushort (.call .double), .vector .ushort (.call .double)]⟩
  | .gameFightTurnReadyRequestMessage => ⟨0, [.call .double]⟩
  | .gameFightShowFighterMessage => ⟨0, [.variant .gameFightFighterInformations]⟩
  | .gameContextDestroyMessage => ⟨0, []⟩
  | .gameEntityDispositionMessage => ⟨0, [.deserialize (some .identifiedEntityDispositionInformations)]⟩
  | .characterLevelUpMessage => ⟨0, [.call .varShort]⟩
  | .characterExperienceGainMessage => ⟨0, [.call .varLong, .call .varLong, .call .varLong, .call .varLong]⟩
  | .version => ⟨0, [.call .byte, .call .byte, .call .byte, .call .int, .call .byte]⟩
  | .gameServerInformations => ⟨1, [.flag 0 0, .flag 0 1, .call .varShort, .call .byte, .call .byte, .call .byte,
    .call .byte, .call .byte, .call .double]⟩
  | .actorExtendedAlignmentInformations => ⟨0, [.call .byte, .call .byte, .call .byte, .call .double,
    .call .varShort, .call .varShort, .call .varShort, .call .byte]⟩
  | .characterBaseCharacteristic => ⟨0, [.call .varShort, .call .varShort, .call .varShort, .call .varShort,
    .call .varShort]⟩
  | .characterSpellModification => ⟨0, [.call .byte, .call .varShort,
    .deserialize (some .characterBaseCharacteristic)]⟩
  | .characterCharacteristicsInformations => ⟨0, [.call .varLong, .call .varLong, .call .varLong, .call .varLong,
    .call .varLong, .call .varShort, .call .varShort, .call .varShort,
    .deserialize (some .actorExtendedAlignmentInformations), .call .varInt, .call .varInt, .call .varShort,
    .call .varShort, .call .varShort, .call .varShort, .deserialize (some .characterBaseCharacteristic),
    .deserialize (some .characterBaseCharacteristic), .deserialize (some .characterBaseCharacteristic),
    .deserialize (some .characterBaseCharacteristic), .deserialize (some .characterBaseCharacteristic),
    .deserialize (some .characterBaseCharacteristic), .deserialize (some .characterBaseCharacteristic),
    .deserialize (some .characterBaseCharacteristic), .deserialize (some .characterBaseCharacteristic),
    .deserialize (some .characterBaseCharacteristic), .deserialize (some .characterBaseCharacteristic),
    .deserialize (some .characterBaseCharacteristic), .deserialize (some .characterBaseCharacteristic),
    .deserialize (some .characterBaseCharacteristic), .call .varShort,
    .deserialize (some .characterBaseCharacteristic), .deserialize (some .characterBaseCharacteristic),
    .deserialize (some .characterBaseCharacteristic), .deserialize (some .characterBaseCharacteristic),
    .deserialize (some .characterBaseCharacteristic), .deserialize (some .characterBaseCharacteristic),
    .deserialize (some .characterBaseCharacteristic), .deserialize (some .characterBaseCharacteristic),
    .deserialize (some .characterBaseCharacteristic), .deserialize (some .characterBaseCharacteristic),
    .deserialize (some .characterBaseCharacteristic), .deserialize (some .characterBaseCharacteristic),
    .deserialize (some .characterBaseCharacteristic), .deserialize (some .characterBaseCharacteristic),
    .deserialize (some .characterBaseCharacteristic), .deserialize (some .characterBaseCharacteristic),
    .deserialize (some .characterBaseCharacteristic), .deserialize (some .characterBaseCharacteristic),
    .deserialize (some .characterBaseCharacteristic), .deserialize (some .characterBaseCharacteristic),
    .deserialize (some .characterBaseCharacteristic), .deserialize (some .characterBaseCharacteristic),
    .deserialize (some .characterBaseCharacteristic), .deserialize (some .characterBaseCharacteristic),
    .deserialize (some .characterBaseCharacteristic), .deserialize (some .characterBaseCharacteristic),
    .deserialize (some .characterBaseCharacteristic), .deserialize (some .characterBaseCharacteristic),
    .deserialize (some .characterBaseCharacteristic), .deserialize (some .characterBaseCharacteristic),
    .deserialize (some .characterBaseCharacteristic), .deserialize (some .characterBaseCharacteristic),
    .deserialize (some .characterBaseCharacteristic), .deserialize (some .characterBaseCharacteristic),
    .deserialize (some .characterBaseCharacteristic), .deserialize (some .characterBaseCharacteristic),
    .deserialize (some .characterBaseCharacteristic), .deserialize (some .characterBaseCharacteristic),
    .deserialize (some .characterBaseCharacteristic), .deserialize (some .characterBaseCharacteristic),
    .deserialize (some .characterBaseCharacteristic), .deserialize (some .characterBaseCharacteristic),
    .deserialize (some .characterBaseCharacteristic), .deserialize (some .characterBaseCharacteristic),
    .deserialize (some .characterBaseCharacteristic), .deserialize (some .characterBaseCharacteristic),
    .deserialize (some .characterBaseCharacteristic), .deserialize (some .characterBaseCharacteristic),
    .deserialize (some .characterBaseCharacteristic), .deserialize (some .characterBaseCharacteristic),
    .deserialize (some .characterBaseCharacteristic), .deserialize (some .characterBaseCharacteristic),
    .deserialize (some .characterBaseCharacteristic),
    .vector .ushort (.deserialize (some .characterSpellModification)), .call .int]⟩
  | .objectItem => ⟨0, [.call .short, .call .varShort, .vector .ushort .default, .call .varInt, .call .varInt]⟩
  | .spellItem => ⟨0, [.call .int, .call .short]⟩
  | .actorRestrictionsInformations => ⟨3, [.flag 0 0, .flag 0 1, .flag 0 2, .flag 0 3, .flag 0 4, .flag 0 5,
    .flag 0 6, .flag 0 7, .flag 1 0, .flag 1 1, .flag 1 2, .flag 1 3, .flag 1 4, .flag 1 5, .flag 1 6, .flag 1 7,
    .flag 2 0, .flag 2 1, .flag 2 2, .flag 2 3, .flag 2 4]⟩
  | .actorOrientation => ⟨0, [.call .double, .call .byte]⟩
  | .idol => ⟨0, [.call .varShort, .call .varShort, .call .varShort]⟩
  | .namedPartyTeam => ⟨0, [.call .byte, .call .utf]⟩
  | .namedPartyTeamWithOutcome => ⟨0, [.deserialize (some .namedPartyTeam), .call .varShort]⟩
  | .entityDispositionInformations => ⟨0, [.call .short, .call .byte]⟩
  | .identifiedEntityDispositionInformations => ⟨0, [.call .short, .call .byte, .call .double]⟩
  | .fightEntityDispositionInformations => ⟨0, [.call .short, .call .byte, .call .double]⟩
  | .subEntity => ⟨0, [.call .byte, .call .byte, .deserialize (some .entityLook)]⟩
  | .entityLook => ⟨0, [.call .varShort, .vector .ushort (.call .varShort), .vector .ushort (.call .int),
    .vector .ushort (.call .varShort), .vector .ushort (.deserialize (some .subEntity))]⟩
  | .gameContextActorPositionInformations => ⟨0, [.call .double, .variant .entityDispositionInformations]⟩
  | .gameContextActorInformations => ⟨0, [.call .double, .variant .entityDispositionInformations,
    .deserialize (some .entityLook)]⟩
  | .gameRolePlayActorInformations => ⟨0, [.call .double, .variant .entityDispositionInformations,
    .deserialize (some .entityLook)]⟩
  | .prismInformation => ⟨0, [.call .byte, .call .byte, .call .int, .call .int, .call .varInt]⟩
  | .guildEmblem => ⟨0, [.call .varShort, .call .int, .call .byte, .call .int]⟩
  | .allianceInformations => ⟨0, [.call .varInt, .call .utf, .call .utf, .deserialize (some .guildEmblem)]⟩
  | .alliancePrismInformation => ⟨0, [.call .byte, .call .byte, .call .int, .call .int, .call .varInt,
    .deserialize (some .allianceInformations)]⟩
  | .allianceInsiderPrismInformation => ⟨0, [.call .byte, .call .byte, .call .int, .call .int, .call .varInt,
    .call .int, .call .varInt, .call .varLong, .call .utf, .vector .ushort (.deserialize (some .objectItem))]⟩
  | .gameRolePlayPrismInformations => ⟨0, [.call .double, .variant .entityDispositionInformations,
    .deserialize (some .entityLook), .variant .prismInformation]⟩
  | .guildInformations => ⟨0, [.call .varInt, .call .utf, .call .byte, .deserialize (some .guildEmblem)]⟩
  | .taxCollectorStaticInformations => ⟨0, [.call .varShort, .call .varShort,
    .deserialize (some .guildInformations), .call .varLong]⟩
  | .taxCollectorStaticExtendedInformations => ⟨0, [.call .varShort, .call .varShort,
    .deserialize (some .guildInformations), .call .varLong, .deserialize (some .allianceInformations)]⟩
  | .gameRolePlayTaxCollectorInformations => ⟨0, [.call .double, .variant .entityDispositionInformations,
    .deserialize (some .entityLook), .variant .taxCollectorStaticInformations, .call .byte, .call .int]⟩
  | .monsterInGroupLightInformations => ⟨0, [.call .int, .call .byte, .call .short]⟩
  | .monsterInGroupInformations => ⟨0, [.call .int, .call .byte, .call .short, .deserialize (some .entityLook)]⟩
  | .groupMonsterStaticInformations => ⟨0, [.deserialize (some .monsterInGroupLightInformations),
    .vector .ushort (.deserialize (some .monsterInGroupInformations))]⟩
  | .alternativeMonstersInGroupLightInformations => ⟨0, [.call .int,
    .vector .ushort (.deserialize (some .monsterInGroupLightInformations))]⟩
  | .groupMonsterStaticInformationsWithAlternatives => ⟨0, [.deserialize (some .monsterInGroupLightInformations),
    .vector .ushort (.deserialize (some .monsterInGroupInformations)),
    .vector .ushort (.deserialize (some .alternativeMonstersInGroupLightInformations))]⟩
  | .gameRolePlayGroupMonsterInformations => ⟨1, [.call .double, .variant .entityDispositionInformations,
    .deserialize (some .entityLook), .flag 0 0, .flag 0 1, .flag 0 2, .variant .groupMonsterStaticInformations,
    .call .byte, .call .byte]⟩
  | .gameRolePlayGroupMonsterWaveInformations => ⟨1, [.call .double, .variant .entityDispositionInformations,
    .deserialize (some .entityLook), .flag 0 0, .flag 0 1, .flag 0 2, .variant .groupMonsterStaticInformations,
    .call .byte, .call .byte, .call .byte, .vector .ushort .default]⟩
  | .gameRolePlayTreasureHintInformations => ⟨0, [.call .double, .variant .entityDispositionInformations,
    .deserialize (some .entityLook), .call .varShort]⟩
  | .gameRolePlayNamedActorInformations => ⟨0, [.call .double, .variant .entityDispositionInformations,
    .deserialize (some .entityLook), .call .utf]⟩
  | .gameRolePlayMerchantInformations => ⟨0, [.call .double, .variant .entityDispositionInformations,
    .deserialize (some .entityLook), .call .utf, .call .byte, .vector .ushort .default]⟩
  | .humanInformations => ⟨0, [.deserialize (some .actorRestrictionsInformations), .call .boolean,
    .vector .ushort .default]⟩
  | .gameRolePlayHumanoidInformations => ⟨0, [.call .double, .variant .entityDispositionInformations,
    .deserialize (some .entityLook), .call .utf, .variant .humanInformations, .call .int]⟩
  | .actorAlignmentInformations => ⟨0, [.call .byte, .call .byte, .call .byte, .call .double]⟩
  | .gameRolePlayCharacterInformations => ⟨0, [.call .double, .variant .entityDispositionInformations,
    .deserialize (some .entityLook), .call .utf, .variant .humanInformations, .call .int,
    .deserialize (some .actorAlignmentInformations)]⟩
  | .gameRolePlayMutantInformations => ⟨0, [.call .double, .variant .entityDispositionInformations,
    .deserialize (some .entityLook), .call .utf, .variant .humanInformations, .call .int, .call .varShort,
    .call .byte]⟩
  | .gameRolePlayMountInformations => ⟨0, [.call .double, .variant .entityDispositionInformations,
    .deserialize (some .entityLook), .call .utf, .call .utf, .call .byte]⟩
  | .portalInformation => ⟨0, [.call .int, .call .short]⟩
  | .gameRolePlayPortalInformations => ⟨0, [.call .double, .variant .entityDispositionInformations,
    .deserialize (some .entityLook), .variant .portalInformation]⟩
  | .gameRolePlayNpcInformations => ⟨0, [.call .double, .variant .entityDispositionInformations,
    .deserialize (some .entityLook), .call .varShort, .call .boolean, .call .varShort]⟩
  | .gameRolePlayNpcQuestFlag => ⟨0, [.vector .ushort (.call .varShort), .vector .ushort (.call .varShort)]⟩
  | .gameRolePlayNpcWithQuestInformations => ⟨0, [.call .double, .variant .entityDispositionInformations,
    .deserialize (some .entityLook), .call .varShort, .call .boolean, .call .varShort,
    .deserialize (some .gameRolePlayNpcQuestFlag)]⟩
  | .gameFightMinimalStats => ⟨0, [.call .varInt, .call .varInt, .call .varInt, .call .varInt, .call .varInt,
    .call .varShort, .call .varShort, .call .varShort, .call .varShort, .call .double, .call .boolean,
    .call .varShort, .call .varShort, .call .varShort, .call .varShort, .call .varShort, .call .varShort,
    .call .varShort, .call .varShort, .call .varShort, .call .varShort, .call .varShort, .call .varShort,
    .call .varShort, .call .varShort, .call .varShort, .call .varShort, .call .varShort, .call .varShort,
    .call .varShort, .call .varShort, .call .varShort, .call .varShort, .call .varShort, .call .varShort,
    .call .varShort, .call .varShort, .call .varShort, .call .byte, .call .varShort, .call .varShort,
    .call .varShort, .call .varShort]⟩
  | .gameFightMinimalStatsPreparation => ⟨0, [.call .varInt, .call .varInt, .call .varInt, .call .varInt,
    .call .varInt, .call .varShort, .call .varShort, .call .varShort, .call .varShort, .call .double,
    .call .boolean, .call .varShort, .call .varShort, .call .varShort, .call .varShort, .call .varShort,
    .call .varShort, .call .varShort, .call .varShort, .call .varShort, .call .varShort, .call .varShort,
    .call .varShort, .call .varShort, .call .varShort, .call .varShort, .call .varShort, .call .varShort,
    .call .varShort, .call .varShort, .call .varShort, .call .varShort, .call .varShort, .call .varShort,
    .call .varShort, .call .varShort, .call .varShort, .call .varShort, .call .byte, .call .varShort,
    .call .varShort, .call .varShort, .call .varShort, .call .varInt]⟩
  | .gameFightAIInformations => ⟨0, [.call .double, .variant .entityDispositionInformations,
    .deserialize (some .entityLook), .deserialize (some .gameContextBasicSpawnInformation), .call .byte,
    .variant .gameFightMinimalStats, .vector .ushort (.call .varShort)]⟩
  | .gameFightMonsterInformations => ⟨0, [.call .double, .variant .entityDispositionInformations,
    .deserialize (some .entityLook), .deserialize (some .gameContextBasicSpawnInformation), .call .byte,
    .variant .gameFightMinimalStats, .vector .ushort (.call .varShort), .call .varShort, .call .byte, .call .short]⟩
  | .gameFightMonsterWithAlignmentInformations => ⟨0, [.call .double, .variant .entityDispositionInformations,
    .deserialize (some .entityLook), .deserialize (some .gameContextBasicSpawnInformation), .call .byte,
    .variant .gameFightMinimalStats, .vector .ushort (.call .varShort), .call .varShort, .call .byte, .call .short,
    .deserialize (some .actorAlignmentInformations)]⟩
  | .gameFightTaxCollectorInformations => ⟨0, [.call .double, .variant .entityDispositionInformations,
    .deserialize (some .entityLook), .deserialize (some .gameContextBasicSpawnInformation), .call .byte,
    .variant .gameFightMinimalStats, .vector .ushort (.call .varShort), .call .varShort, .call .varShort,
    .call .byte]⟩
  | .playerStatus => ⟨0, [.call .byte]⟩
  | .gameFightFighterNamedInformations => ⟨0, [.call .double, .variant .entityDispositionInformations,
    .deserialize (some .entityLook), .deserialize (some .gameContextBasicSpawnInformation), .call .byte,
    .variant .gameFightMinimalStats, .vector .ushort (.call .varShort), .call .utf,
    .deserialize (some .playerStatus), .call .varShort, .call .int, .call .boolean]⟩
  | .gameFightMutantInformations => ⟨0, [.call .double, .variant .entityDispositionInformations,
    .deserialize (some .entityLook), .deserialize (some .gameContextBasicSpawnInformation), .call .byte,
    .variant .gameFightMinimalStats, .vector .ushort (.call .varShort), .call .utf,
    .deserialize (some .playerStatus), .call .varShort, .call .int, .call .boolean, .call .byte]⟩
  | .gameFightCharacterInformations => ⟨0, [.call .double, .variant .entityDispositionInformations,
    .deserialize (some .entityLook), .deserialize (some .gameContextBasicSpawnInformation), .call .byte,
    .variant .gameFightMinimalStats, .vector .ushort (.call .varShort), .call .utf,
    .deserialize (some .playerStatus), .call .varShort, .call .int, .call .boolean, .call .varShort,
    .deserialize (some .actorAlignmentInformations), .call .byte, .call .boolean]⟩
  | .gameFightEntityInformation => ⟨0, [.call .double, .variant .entityDispositionInformations,
    .deserialize (some .entityLook), .deserialize (some .gameContextBasicSpawnInformation), .call .byte,
    .variant .gameFightMinimalStats, .vector .ushort (.call .varShort), .call .byte, .call .varShort,
    .call .double]⟩
  | .gameContextBasicSpawnInformation => ⟨0, [.call .byte, .call .boolean,
    .variant .gameContextActorPositionInformations]⟩
  | .gameFightFighterInformations => ⟨0, [.call .double, .variant .entityDispositionInformations,
    .deserialize (some .entityLook), .deserialize (some .gameContextBasicSpawnInformation), .call .byte,
    .variant .gameFightMinimalStats, .vector .ushort (.call .varShort)]⟩

/-- The variant enums, with the type ids of their variants. -/
def hierarchies : List (TypeHierarchy ClassName) := [
    ⟨.entityDispositionInformations, [(.entityDispositionInformations, 7114),
    (.identifiedEntityDispositionInformations, 4029), (.fightEntityDispositionInformations, 4954)]⟩,
    ⟨.prismInformation, [(.prismInformation, 5963), (.alliancePrismInformation, 5996),
    (.allianceInsiderPrismInformation, 6982)]⟩,
    ⟨.taxCollectorStaticInformations, [(.taxCollectorStaticInformations, 2842),
    (.taxCollectorStaticExtendedInformations, 6436)]⟩,
    ⟨.groupMonsterStaticInformations, [(.groupMonsterStaticInformations, 4311),
    (.groupMonsterStaticInformationsWithAlternatives, 8629)]⟩,
    ⟨.humanInformations, [(.humanInformations, 5831)]⟩,
    ⟨.portalInformation, [(.portalInformation, 1367)]⟩,
    ⟨.gameFightMinimalStats, [(.gameFightMinimalStats, 8253), (.gameFightMinimalStatsPreparation, 9464)]⟩,
    ⟨.gameContextActorPositionInformations, [(.gameContextActorPositionInformations, 9244),
    (.gameContextActorInformations, 424), (.gameRolePlayActorInformations, 2333),
    (.gameRolePlayPrismInformations, 7), (.gameRolePlayTaxCollectorInformations, 3424),
    (.gameRolePlayGroupMonsterInformations, 4648), (.gameRolePlayGroupMonsterWaveInformations, 7041),
    (.gameRolePlayTreasureHintInformations, 5073), (.gameRolePlayNamedActorInformations, 5940),
    (.gameRolePlayMerchantInformations, 1204), (.gameRolePlayHumanoidInformations, 2640),
    (.gameRolePlayCharacterInformations, 5268), (.gameRolePlayMutantInformations, 8271),
    (.gameRolePlayMountInformations, 4944), (.gameRolePlayPortalInformations, 6138),
    (.gameRolePlayNpcInformations, 8307), (.gameRolePlayNpcWithQuestInformations, 5968),
    (.gameFightFighterInformations, 8400), (.gameFightAIInformations, 950), (.gameFightMonsterInformations, 6096),
    (.gameFightMonsterWithAlignmentInformations, 1318), (.gameFightTaxCollectorInformations, 6975),
    (.gameFightFighterNamedInformations, 6665), (.gameFightMutantInformations, 4633),
    (.gameFightCharacterInformations, 7807), (.gameFightEntityInformation, 9631)]⟩,
    ⟨.gameFightFighterInformations, [(.gameFightFighterInformations, 8400), (.gameFightAIInformations, 950),
    (.gameFightMonsterInformations, 6096), (.gameFightMonsterWithAlignmentInformations, 1318),
    (.gameFightTaxCollectorInformations, 6975), (.gameFightFighterNamedInformations, 6665),
    (.gameFightMutantInformations, 4633), (.gameFightCharacterInformations, 7807),
    (.gameFightEntityInformation, 9631)]⟩]

def protocol : ProtocolGen.Protocol ClassName := { classes := [], hierarchies }

/-- The arms of `from_raw`, by message id. -/
def messages : List (UInt16 × ClassName) :=
  [(4849, .protocolRequired), (1251, .helloConnectMessage), (8050, .identificationMessage),
    (149, .identificationSuccessMessage), (1345, .identificationFailedMessage), (7603, .serversListMessage),
    (7721, .serverSelectionMessage), (9610, .selectedServerDataMessage), (1864, .authenticationTicketMessage),
    (9070, .basicPingMessage), (8820, .basicPongMessage), (2566, .charactersListRequestMessage),
    (6200, .characterSelectionMessage), (8305, .gameContextCreateRequestMessage),
    (2144, .characterNameSuggestionRequestMessage), (1738, .characterCreationRequestMessage),
    (4663, .characterStatsListMessage), (7685, .inventoryContentMessage), (8104, .inventoryWeightMessage),
    (3553, .spellListMessage), (8111, .setCharacterRestrictionsMessage), (7087, .characterLoadingCompleteMessage),
    (7338, .lifePointsRegenBeginMessage), (4222, .serverExperienceModificatorMessage),
    (6344, .gameContextRemoveElementMessage), (3376, .gameMapMovementRequestMessage),
    (5538, .gameMapMovementMessage), (1882, .gameMapMovementConfirmMessage), (5266, .gameMapMovementCancelMessage),
    (3266, .changeMapMessage), (5569, .gameMapChangeOrientationRequestMessage),
    (5147, .gameMapChangeOrientationMessage), (3674, .chatClientMultiMessage), (5509, .chatServerMessage),
    (6307, .chatClientPrivateMessage), (9502, .chatServerCopyMessage), (4945, .emotePlayRequestMessage),
    (6496, .emotePlayMessage), (6335, .emoteListMessage), (7455, .friendsGetListMessage),
    (1663, .friendAddRequestMessage), (5614, .friendDeleteRequestMessage), (5776, .friendDeleteResultMessage),
    (4315, .ignoredGetListMessage), (5690, .ignoredAddRequestMessage), (9881, .ignoredDeleteRequestMessage),
    (6002, .npcGenericActionRequestMessage), (3416, .npcDialogCreationMessage), (7921, .npcDialogQuestionMessage),
    (6305, .npcDialogReplyMessage), (1095, .leaveDialogRequestMessage), (5720, .leaveDialogMessage),
    (3293, .questListRequestMessage), (7788, .questListMessage), (5795, .questStartedMessage),
    (2692, .questStepStartedMessage), (8139, .questObjectiveValidatedMessage), (5890, .questStepValidatedMessage),
    (7778, .questValidatedMessage), (9947, .gameRolePlayAttackMonsterRequestMessage),
    (3960, .gameFightStartingMessage), (685, .gameFightJoinMessage), (7439, .gameFightStartMessage),
    (6612, .gameFightEndMessage), (266, .gameFightReadyMessage),
    (4098, .gameFightPlacementPossiblePositionsMessage), (8878, .gameFightPlacementPositionRequestMessage),
    (7110, .gameFightTurnStartMessage), (8856, .gameFightTurnEndMessage), (765, .gameFightTurnReadyMessage),
    (1536, .gameFightTurnFinishMessage), (4660, .gameFightNewRoundMessage), (4491, .gameFightLeaveMessage),
    (5026, .gameActionFightSpellCastMessage), (3225, .gameActionFightDeathMessage),
    (8747, .gameActionFightLifePointsLostMessage), (5415, .gameActionFightPointsVariationMessage),
    (5293, .sequenceStartMessage), (7632, .sequenceEndMessage), (1470, .gameActionFightCastRequestMessage),
    (9365, .gameFightTurnListMessage), (6293, .gameFightTurnReadyRequestMessage),
    (3884, .gameFightShowFighterMessage), (1226, .gameContextDestroyMessage), (3636, .gameEntityDispositionMessage),
    (4759, .characterLevelUpMessage), (3122, .characterExperienceGainMessage)]

def deserialize (fuel : Nat) (name : ClassName) : BigEndianReader (Value ClassName) :=
  protocol.deserializeWith (fun n => some (body n)) fuel name

inductive ProtocolMessage where
  | known (message : Value ClassName)
  | unknown (messageId : UInt16) (payload : List UInt8)

/-- `ProtocolMessage::from_raw`, with at most `fuel` nested calls of `deserialize`. -/
def fromRaw (fuel : Nat) (messageId : UInt16) (payload : List UInt8) : Outcome IoError ProtocolMessage :=
  match messages.lookup messageId with
  | some name => deserialize fuel name (Cursor.ofBytes payload) >>= fun x => .ok (.known x.1)
  | none => .ok (.unknown messageId payload)

end Otomai.Protocol
