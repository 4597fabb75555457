namespace WorldTriggers

abbrev RoomId := String

abbrev AreaId := String

abbrev ActorId := String

abbrev TemplateId := String

abbrev RuleId := String

end WorldTriggers
