/-! Offsets from universal time, by the names of the time zone database, for the year 2024. -/
namespace Outreach.Time

/-- Zones that share their clock: seconds east of universal time at the start of the year, and the
instants (in seconds since 1970) of its changes with the offset that holds from there on. -/
structure ZoneGroup where
  base : Int
  changes : List (Int × Int)
  names : List String

def zoneGroups : List ZoneGroup := [
  ⟨-43200, [], ["Etc/GMT+12"]⟩,
  ⟨-39600, [], ["Etc/GMT+11", "Pacific/Midway", "Pacific/Niue", "Pacific/Pago_Pago",
    "Pacific/Samoa", "US/Samoa"]⟩,
  ⟨-36000, [], ["Etc/GMT+10", "HST", "Pacific/Honolulu", "Pacific/Johnston", "Pacific/Rarotonga",
    "Pacific/Tahiti", "US/Hawaii"]⟩,
  ⟨-36000, [(1710072000, -32400), (1730631600, -36000)], ["America/Adak", "America/Atka",
    "US/Aleutian"]⟩,
  ⟨-34200, [], ["Pacific/Marquesas"]⟩,
  ⟨-32400, [], ["Etc/GMT+9", "Pacific/Gambier"]⟩,
  ⟨-32400, [(1710068400, -28800), (1730628000, -32400)], ["America/Anchorage", "America/Juneau",
    "America/Metlakatla", "America/Nome", "America/Sitka", "America/Yakutat", "US/Alaska"]⟩,
  ⟨-28800, [], ["Etc/GMT+8", "Pacific/Pitcairn"]⟩,
  ⟨-28800, [(1710064800, -25200), (1730624400, -28800)], ["America/Ensenada",
    "America/Los_Angeles", "America/Santa_Isabel", "America/Tijuana", "America/Vancouver",
    "Canada/Pacific", "Mexico/BajaNorte", "PST8PDT", "US/Pacific"]⟩,
  ⟨-25200, [], ["America/Creston", "America/Dawson", "America/Dawson_Creek", "America/Fort_Nelson",
    "America/Hermosillo", "America/Mazatlan", "America/Phoenix", "America/Whitehorse",
    "Canada/Yukon", "Etc/GMT+7", "MST", "Mexico/BajaSur", "US/Arizona"]⟩,
  ⟨-25200, [(1710061200, -21600), (1730620800, -25200)], ["America/Boise", "America/Cambridge_Bay",
    "America/Ciudad_Juarez", "America/Denver", "America/Edmonton", "America/Inuvik",
    "America/Shiprock", "America/Yellowknife", "Canada/Mountain", "MST7MDT", "Navajo",
    "US/Mountain"]⟩,
  ⟨-21600, [], ["America/Bahia_Banderas", "America/Belize", "America/Chihuahua",
    "America/Costa_Rica", "America/El_Salvador", "America/Guatemala", "America/Managua",
    "America/Merida", "America/Mexico_City", "America/Monterrey", "America/Regina",
    "America/Swift_Current", "America/Tegucigalpa", "Canada/Saskatchewan", "Etc/GMT+6",
    "Mexico/General", "Pacific/Galapagos"]⟩,
  ⟨-21600, [(1710057600, -18000), (1730617200, -21600)], ["America/Chicago",
    "America/Indiana/Knox", "America/Indiana/Tell_City", "America/Knox_IN", "America/Matamoros",
    "America/Menominee", "America/North_Dakota/Beulah", "America/North_Dakota/Center",
    "America/North_Dakota/New_Salem", "America/Ojinaga", "America/Rainy_River",
    "America/Rankin_Inlet", "America/Resolute", "America/Winnipeg", "CST6CDT", "Canada/Central",
    "US/Central", "US/Indiana-Starke"]⟩,
  ⟨-18000, [], ["America/Atikokan", "America/Bogota", "America/Cancun", "America/Cayman",
    "America/Coral_Harbour", "America/Eirunepe", "America/Guayaquil", "America/Jamaica",
    "America/Lima", "America/Panama", "America/Porto_Acre", "America/Rio_Branco", "Brazil/Acre",
    "EST", "Etc/GMT+5", "Jamaica"]⟩,
  ⟨-18000, [(1710046800, -14400), (1730610000, -18000)], ["America/Havana", "Cuba"]⟩,
  ⟨-18000, [(1710054000, -14400), (1730613600, -18000)], ["America/Detroit", "America/Fort_Wayne",
    "America/Grand_Turk", "America/Indiana/Indianapolis", "America/Indiana/Marengo",
    "America/Indiana/Petersburg", "America/Indiana/Vevay", "America/Indiana/Vincennes",
    "America/Indiana/Winamac", "America/Indianapolis", "America/Iqaluit",
    "America/Kentucky/Louisville", "America/Kentucky/Monticello", "America/Louisville",
    "America/Montreal", "America/Nassau", "America/New_York", "America/Nipigon",
    "America/Pangnirtung", "America/Port-au-Prince", "America/Thunder_Bay", "America/Toronto",
    "Canada/Eastern", "EST5EDT", "US/East-Indiana", "US/Eastern", "US/Michigan"]⟩,
  ⟨-18000, [(1712458800, -21600), (1725768000, -18000)], ["Chile/EasterIsland", "Pacific/Easter"]⟩,
  ⟨-14400, [], ["America/Anguilla", "America/Antigua", "America/Aruba", "America/Barbados",
    "America/Blanc-Sablon", "America/Boa_Vista", "America/Campo_Grande", "America/Caracas",
    "America/Cuiaba", "America/Curacao", "America/Dominica", "America/Grenada",
    "America/Guadeloupe", "America/Guyana", "America/Kralendijk", "America/La_Paz",
    "America/Lower_Princes", "America/Manaus", "America/Marigot", "America/Martinique",
    "America/Montserrat", "America/Port_of_Spain", "America/Porto_Velho", "America/Puerto_Rico",
    "America/Santo_Domingo", "America/St_Barthelemy", "America/St_Kitts", "America/St_Lucia",
    "America/St_Thomas", "America/St_Vincent", "America/Tortola", "America/Virgin", "Brazil/West",
    "Etc/GMT+4"]⟩,
  ⟨-14400, [(1710050400, -10800), (1730610000, -14400)], ["America/Glace_Bay", "America/Goose_Bay",
    "America/Halifax", "America/Moncton", "America/Thule", "Atlantic/Bermuda", "Canada/Atlantic"]⟩,
  ⟨-12600, [(1710048600, -9000), (1730608200, -12600)], ["America/St_Johns", "Canada/Newfoundland"]⟩,
  ⟨-10800, [], ["America/Araguaina", "America/Argentina/Buenos_Aires",
    "America/Argentina/Catamarca", "America/Argentina/ComodRivadavia", "America/Argentina/Cordoba",
    "America/Argentina/Jujuy", "America/Argentina/La_Rioja", "America/Argentina/Mendoza",
    "America/Argentina/Rio_Gallegos", "America/Argentina/Salta", "America/Argentina/San_Juan",
    "America/Argentina/San_Luis", "America/Argentina/Tucuman", "America/Argentina/Ushuaia",
    "America/Bahia", "America/Belem", "America/Buenos_Aires", "America/Catamarca",
    "America/Cayenne", "America/Cordoba", "America/Fortaleza", "America/Jujuy", "America/Maceio",
    "America/Mendoza", "America/Montevideo", "America/Paramaribo", "America/Punta_Arenas",
    "America/Recife", "America/Rosario", "America/Santarem", "America/Sao_Paulo",
    "Antarctica/Palmer", "Antarctica/Rothera", "Atlantic/Stanley", "Brazil/East", "Etc/GMT+3"]⟩,
  ⟨-10800, [(1710046800, -7200), (1730606400, -10800)], ["America/Miquelon"]⟩,
  ⟨-10800, [(1711249200, -14400), (1728187200, -10800)], ["America/Asuncion"]⟩,
  ⟨-10800, [(1712458800, -14400), (1725768000, -10800)], ["America/Coyhaique", "America/Santiago",
    "Chile/Continental"]⟩,
  ⟨-7200, [], ["America/Noronha", "Atlantic/South_Georgia", "Brazil/DeNoronha", "Etc/GMT+2"]⟩,
  ⟨-7200, [(1711846800, -3600), (1729990800, -7200)], ["America/Godthab", "America/Nuuk"]⟩,
  ⟨-3600, [], ["Atlantic/Cape_Verde", "Etc/GMT+1"]⟩,
  ⟨-3600, [(1711846800, 0), (1729990800, -3600)], ["Atlantic/Azores"]⟩,
  ⟨-3600, [(1729990800, -7200)], ["America/Scoresbysund"]⟩,
  ⟨0, [], ["Africa/Abidjan", "Africa/Accra", "Africa/Bamako", "Africa/Banjul", "Africa/Bissau",
    "Africa/Conakry", "Africa/Dakar", "Africa/Freetown", "Africa/Lome", "Africa/Monrovia",
    "Africa/Nouakchott", "Africa/Ouagadougou", "Africa/Sao_Tome", "Africa/Timbuktu",
    "America/Danmarkshavn", "Atlantic/Reykjavik", "Atlantic/St_Helena", "Etc/GMT", "Etc/GMT+0",
    "Etc/GMT-0", "Etc/GMT0", "Etc/Greenwich", "Etc/UCT", "Etc/UTC", "Etc/Universal", "Etc/Zulu",
    "GMT", "GMT+0", "GMT-0", "GMT0", "Greenwich", "Iceland", "UCT", "UTC", "Universal", "Zulu"]⟩,
  ⟨0, [(1711846800, 3600), (1729990800, 0)], ["Atlantic/Canary", "Atlantic/Faeroe",
    "Atlantic/Faroe", "Atlantic/Madeira", "Eire", "Europe/Belfast", "Europe/Dublin",
    "Europe/Guernsey", "Europe/Isle_of_Man", "Europe/Jersey", "Europe/Lisbon", "Europe/London",
    "GB", "GB-Eire", "Portugal", "WET"]⟩,
  ⟨0, [(1711846800, 7200), (1729990800, 0)], ["Antarctica/Troll"]⟩,
  ⟨3600, [], ["Africa/Algiers", "Africa/Bangui", "Africa/Brazzaville", "Africa/Douala",
    "Africa/Kinshasa", "Africa/Lagos", "Africa/Libreville", "Africa/Luanda", "Africa/Malabo",
    "Africa/Ndjamena", "Africa/Niamey", "Africa/Porto-Novo", "Africa/Tunis", "Etc/GMT-1"]⟩,
  ⟨3600, [(1710036000, 0), (1713060000, 3600)], ["Africa/Casablanca", "Africa/El_Aaiun"]⟩,
  ⟨3600, [(1711846800, 7200), (1729990800, 3600)], ["Africa/Ceuta", "Arctic/Longyearbyen",
    "Atlantic/Jan_Mayen", "CET", "Europe/Amsterdam", "Europe/Andorra", "Europe/Belgrade",
    "Europe/Berlin", "Europe/Bratislava", "Europe/Brussels", "Europe/Budapest", "Europe/Busingen",
    "Europe/Copenhagen", "Europe/Gibraltar", "Europe/Ljubljana", "Europe/Luxembourg",
    "Europe/Madrid", "Europe/Malta", "Europe/Monaco", "Europe/Oslo", "Europe/Paris",
    "Europe/Podgorica", "Europe/Prague", "Europe/Rome", "Europe/San_Marino", "Europe/Sarajevo",
    "Europe/Skopje", "Europe/Stockholm", "Europe/Tirane", "Europe/Vaduz", "Europe/Vatican",
    "Europe/Vienna", "Europe/Warsaw", "Europe/Zagreb", "Europe/Zurich", "MET", "Poland"]⟩,
  ⟨7200, [], ["Africa/Blantyre", "Africa/Bujumbura", "Africa/Gaborone", "Africa/Harare",
    "Africa/Johannesburg", "Africa/Juba", "Africa/Khartoum", "Africa/Kigali", "Africa/Lubumbashi",
    "Africa/Lusaka", "Africa/Maputo", "Africa/Maseru", "Africa/Mbabane", "Africa/Tripoli",
    "Africa/Windhoek", "Etc/GMT-2", "Europe/Kaliningrad", "Libya"]⟩,
  ⟨7200, [(1711670400, 10800), (1729983600, 7200)], ["Asia/Jerusalem", "Asia/Tel_Aviv", "Israel"]⟩,
  ⟨7200, [(1711836000, 10800), (1729976400, 7200)], ["Asia/Beirut"]⟩,
  ⟨7200, [(1711846800, 10800), (1729990800, 7200)], ["Asia/Famagusta", "Asia/Nicosia", "EET",
    "Europe/Athens", "Europe/Bucharest", "Europe/Chisinau", "Europe/Helsinki", "Europe/Kiev",
    "Europe/Kyiv", "Europe/Mariehamn", "Europe/Nicosia", "Europe/Riga", "Europe/Sofia",
    "Europe/Tallinn", "Europe/Tiraspol", "Europe/Uzhgorod", "Europe/Vilnius", "Europe/Zaporozhye"]⟩,
  ⟨7200, [(1713571200, 10800), (1729897200, 7200)], ["Asia/Gaza", "Asia/Hebron"]⟩,
  ⟨7200, [(1714082400, 10800), (1730408400, 7200)], ["Africa/Cairo", "Egypt"]⟩,
  ⟨10800, [], ["Africa/Addis_Ababa", "Africa/Asmara", "Africa/Asmera", "Africa/Dar_es_Salaam",
    "Africa/Djibouti", "Africa/Kampala", "Africa/Mogadishu", "Africa/Nairobi", "Antarctica/Syowa",
    "Asia/Aden", "Asia/Amman", "Asia/Baghdad", "Asia/Bahrain", "Asia/Damascus", "Asia/Istanbul",
    "Asia/Kuwait", "Asia/Qatar", "Asia/Riyadh", "Etc/GMT-3", "Europe/Istanbul", "Europe/Kirov",
    "Europe/Minsk", "Europe/Moscow", "Europe/Simferopol", "Europe/Volgograd",
    "Indian/Antananarivo", "Indian/Comoro", "Indian/Mayotte", "Turkey", "W-SU"]⟩,
  ⟨12600, [], ["Asia/Tehran", "Iran"]⟩,
  ⟨14400, [], ["Asia/Baku", "Asia/Dubai", "Asia/Muscat", "Asia/Tbilisi", "Asia/Yerevan",
    "Etc/GMT-4", "Europe/Astrakhan", "Europe/Samara", "Europe/Saratov", "Europe/Ulyanovsk",
    "Indian/Mahe", "Indian/Mauritius", "Indian/Reunion"]⟩,
  ⟨16200, [], ["Asia/Kabul"]⟩,
  ⟨18000, [], ["Antarctica/Mawson", "Antarctica/Vostok", "Asia/Aqtau", "Asia/Aqtobe",
    "Asia/Ashgabat", "Asia/Ashkhabad", "Asia/Atyrau", "Asia/Dushanbe", "Asia/Karachi", "Asia/Oral",
    "Asia/Qyzylorda", "Asia/Samarkand", "Asia/Tashkent", "Asia/Yekaterinburg", "Etc/GMT-5",
    "Indian/Kerguelen", "Indian/Maldives"]⟩,
  ⟨19800, [], ["Asia/Calcutta", "Asia/Colombo", "Asia/Kolkata"]⟩,
  ⟨20700, [], ["Asia/Kathmandu", "Asia/Katmandu"]⟩,
  ⟨21600, [], ["Asia/Bishkek", "Asia/Dacca", "Asia/Dhaka", "Asia/Kashgar", "Asia/Omsk",
    "Asia/Thimbu", "Asia/Thimphu", "Asia/Urumqi", "Etc/GMT-6", "Indian/Chagos"]⟩,
  ⟨21600, [(1709229600, 18000)], ["Asia/Almaty", "Asia/Qostanay"]⟩,
  ⟨23400, [], ["Asia/Rangoon", "Asia/Yangon", "Indian/Cocos"]⟩,
  ⟨25200, [], ["Antarctica/Davis", "Asia/Bangkok", "Asia/Barnaul", "Asia/Ho_Chi_Minh", "Asia/Hovd",
    "Asia/Jakarta", "Asia/Krasnoyarsk", "Asia/Novokuznetsk", "Asia/Novosibirsk", "Asia/Phnom_Penh",
    "Asia/Pontianak", "Asia/Saigon", "Asia/Tomsk", "Asia/Vientiane", "Etc/GMT-7",
    "Indian/Christmas"]⟩,
  ⟨28800, [], ["Antarctica/Casey", "Asia/Brunei", "Asia/Choibalsan", "Asia/Chongqing",
    "Asia/Chungking", "Asia/Harbin", "Asia/Hong_Kong", "Asia/Irkutsk", "Asia/Kuala_Lumpur",
    "Asia/Kuching", "Asia/Macao", "Asia/Macau", "Asia/Makassar", "Asia/Manila", "Asia/Shanghai",
    "Asia/Singapore", "Asia/Taipei", "Asia/Ujung_Pandang", "Asia/Ulaanbaatar", "Asia/Ulan_Bator",
    "Australia/Perth", "Australia/West", "Etc/GMT-8", "Hongkong", "PRC", "ROC", "Singapore"]⟩,
  ⟨31500, [], ["Australia/Eucla"]⟩,
  ⟨32400, [], ["Asia/Chita", "Asia/Dili", "Asia/Jayapura", "Asia/Khandyga", "Asia/Pyongyang",
    "Asia/Seoul", "Asia/Tokyo", "Asia/Yakutsk", "Etc/GMT-9", "Japan", "Pacific/Palau", "ROK"]⟩,
  ⟨34200, [], ["Australia/Darwin", "Australia/North"]⟩,
  ⟨36000, [], ["Antarctica/DumontDUrville", "Asia/Ust-Nera", "Asia/Vladivostok",
    "Australia/Brisbane", "Australia/Lindeman", "Australia/Queensland", "Etc/GMT-10",
    "Pacific/Chuuk", "Pacific/Guam", "Pacific/Port_Moresby", "Pacific/Saipan", "Pacific/Truk",
    "Pacific/Yap"]⟩,
  ⟨37800, [(1712421000, 34200), (1728145800, 37800)], ["Australia/Adelaide",
    "Australia/Broken_Hill", "Australia/South", "Australia/Yancowinna"]⟩,
  ⟨39600, [], ["Asia/Magadan", "Asia/Sakhalin", "Asia/Srednekolymsk", "Etc/GMT-11",
    "Pacific/Bougainville", "Pacific/Efate", "Pacific/Guadalcanal", "Pacific/Kosrae",
    "Pacific/Noumea", "Pacific/Pohnpei", "Pacific/Ponape"]⟩,
  ⟨39600, [(1712415600, 37800), (1728142200, 39600)], ["Australia/LHI", "Australia/Lord_Howe"]⟩,
  ⟨39600, [(1712419200, 36000), (1728144000, 39600)], ["Antarctica/Macquarie", "Australia/ACT",
    "Australia/Canberra", "Australia/Currie", "Australia/Hobart", "Australia/Melbourne",
    "Australia/NSW", "Australia/Sydney", "Australia/Tasmania", "Australia/Victoria"]⟩,
  ⟨43200, [], ["Asia/Anadyr", "Asia/Kamchatka", "Etc/GMT-12", "Kwajalein", "Pacific/Fiji",
    "Pacific/Funafuti", "Pacific/Kwajalein", "Pacific/Majuro", "Pacific/Nauru", "Pacific/Tarawa",
    "Pacific/Wake", "Pacific/Wallis"]⟩,
  ⟨43200, [(1712415600, 39600), (1728140400, 43200)], ["Pacific/Norfolk"]⟩,
  ⟨46800, [], ["Etc/GMT-13", "Pacific/Apia", "Pacific/Enderbury", "Pacific/Fakaofo",
    "Pacific/Kanton", "Pacific/Tongatapu"]⟩,
  ⟨46800, [(1712412000, 43200), (1727532000, 46800)], ["Antarctica/McMurdo",
    "Antarctica/South_Pole", "NZ", "Pacific/Auckland"]⟩,
  ⟨49500, [(1712412000, 45900), (1727532000, 49500)], ["NZ-CHAT", "Pacific/Chatham"]⟩,
  ⟨50400, [], ["Etc/GMT-14", "Pacific/Kiritimati"]⟩]

end Outreach.Time
