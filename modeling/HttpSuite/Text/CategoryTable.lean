import HttpSuite.Text.Runs

/-!
# Categories of characters, as data

The general category of every code point, and the two properties that no
category decides: letters that are marks by category, and spacing marks that
extend the character before them. The tables are read by `Text.Category`; what
a class of characters means is said there, and nothing else reads the tables.

A run of the first table starts at a code point, in hexadecimal, and reaches to
the start of the next one; its two letters are the category.
-/

namespace HttpSuite.Text.CategoryTable

/-- The general categories, as runs. -/
def categoryText : String := "0Cc20Zs21Po24Sc25Po28Ps29Pe2aPo2bSm2cPo2dPd2ePo30Nd3aPo3cSm3fPo41Lu5bPs5cPo5dPe5eSk5fPc60Sk61Ll
7bPs7cSm7dPe7eSm7fCca0Zsa1Poa2Sca6Soa7Poa8Ska9SoaaLoabPiacSmadCfaeSoafSkb0Sob1Smb2Nob4Skb5Llb6Po
b8Skb9NobaLobbPfbcNobfPoc0Lud7Smd8LudfLlf7Smf8Ll100Lu101Ll102Lu103Ll104Lu105Ll106Lu107Ll108Lu
109Ll10aLu10bLl10cLu10dLl10eLu10fLl110Lu111Ll112Lu113Ll114Lu115Ll116Lu117Ll118Lu119Ll11aLu11bLl
11cLu11dLl11eLu11fLl120Lu121Ll122Lu123Ll124Lu125Ll126Lu127Ll128Lu129Ll12aLu12bLl12cLu12dLl12eLu
12fLl130Lu131Ll132Lu133Ll134Lu135Ll136Lu137Ll139Lu13aLl13bLu13cLl13dLu13eLl13fLu140Ll141Lu142Ll
143Lu144Ll145Lu146Ll147Lu148Ll14aLu14bLl14cLu14dLl14eLu14fLl150Lu151Ll152Lu153Ll154Lu155Ll156Lu
157Ll158Lu159Ll15aLu15bLl15cLu15dLl15eLu15fLl160Lu161Ll162Lu163Ll164Lu165Ll166Lu167Ll168Lu169Ll
16aLu16bLl16cLu16dLl16eLu16fLl170Lu171Ll172Lu173Ll174Lu175Ll176Lu177Ll178Lu17aLl17bLu17cLl17dLu
17eLl181Lu183Ll184Lu185Ll186Lu188Ll189Lu18cLl18eLu192Ll193Lu195Ll196Lu199Ll19cLu19eLl19fLu1a1Ll
1a2Lu1a3Ll1a4Lu1a5Ll1a6Lu1a8Ll1a9Lu1aaLl1acLu1adLl1aeLu1b0Ll1b1Lu1b4Ll1b5Lu1b6Ll1b7Lu1b9Ll1bbLo
1bcLu1bdLl1c0Lo1c4Lu1c5Lt1c6Ll1c7Lu1c8Lt1c9Ll1caLu1cbLt1ccLl1cdLu1ceLl1cfLu1d0Ll1d1Lu1d2Ll1d3Lu
1d4Ll1d5Lu1d6Ll1d7Lu1d8Ll1d9Lu1daLl1dbLu1dcLl1deLu1dfLl1e0Lu1e1Ll1e2Lu1e3Ll1e4Lu1e5Ll1e6Lu1e7Ll
1e8Lu1e9Ll1eaLu1ebLl1ecLu1edLl1eeLu1efLl1f1Lu1f2Lt1f3Ll1f4Lu1f5Ll1f6Lu1f9Ll1faLu1fbLl1fcLu1fdLl
1feLu1ffLl200Lu201Ll202Lu203Ll204Lu205Ll206Lu207Ll208Lu209Ll20aLu20bLl20cLu20dLl20eLu20fLl210Lu
211Ll212Lu213Ll214Lu215Ll216Lu217Ll218Lu219Ll21aLu21bLl21cLu21dLl21eLu21fLl220Lu221Ll222Lu223Ll
224Lu225Ll226Lu227Ll228Lu229Ll22aLu22bLl22cLu22dLl22eLu22fLl230Lu231Ll232Lu233Ll23aLu23cLl23dLu
23fLl241Lu242Ll243Lu247Ll248Lu249Ll24aLu24bLl24cLu24dLl24eLu24fLl294Lo295Ll2b0Lm2c2Sk2c6Lm2d2Sk
2e0Lm2e5Sk2ecLm2edSk2eeLm2efSk300Mn370Lu371Ll372Lu373Ll374Lm375Sk376Lu377Ll378Cn37aLm37bLl37ePo
37fLu380Cn384Sk386Lu387Po388Lu38bCn38cLu38dCn38eLu390Ll391Lu3a2Cn3a3Lu3acLl3cfLu3d0Ll3d2Lu3d5Ll
3d8Lu3d9Ll3daLu3dbLl3dcLu3ddLl3deLu3dfLl3e0Lu3e1Ll3e2Lu3e3Ll3e4Lu3e5Ll3e6Lu3e7Ll3e8Lu3e9Ll3eaLu
3ebLl3ecLu3edLl3eeLu3efLl3f4Lu3f5Ll3f6Sm3f7Lu3f8Ll3f9Lu3fbLl3fdLu430Ll460Lu461Ll462Lu463Ll464Lu
465Ll466Lu467Ll468Lu469Ll46aLu46bLl46cLu46dLl46eLu46fLl470Lu471Ll472Lu473Ll474Lu475Ll476Lu477Ll
478Lu479Ll47aLu47bLl47cLu47dLl47eLu47fLl480Lu481Ll482So483Mn488Me48aLu48bLl48cLu48dLl48eLu48fLl
490Lu491Ll492Lu493Ll494Lu495Ll496Lu497Ll498Lu499Ll49aLu49bLl49cLu49dLl49eLu49fLl4a0Lu4a1Ll4a2Lu
4a3Ll4a4Lu4a5Ll4a6Lu4a7Ll4a8Lu4a9Ll4aaLu4abLl4acLu4adLl4aeLu4afLl4b0Lu4b1Ll4b2Lu4b3Ll4b4Lu4b5Ll
4b6Lu4b7Ll4b8Lu4b9Ll4baLu4bbLl4bcLu4bdLl4beLu4bfLl4c0Lu4c2Ll4c3Lu4c4Ll4c5Lu4c6Ll4c7Lu4c8Ll4c9Lu
4caLl4cbLu4ccLl4cdLu4ceLl4d0Lu4d1Ll4d2Lu4d3Ll4d4Lu4d5Ll4d6Lu4d7Ll4d8Lu4d9Ll4daLu4dbLl4dcLu4ddLl
4deLu4dfLl4e0Lu4e1Ll4e2Lu4e3Ll4e4Lu4e5Ll4e6Lu4e7Ll4e8Lu4e9Ll4eaLu4ebLl4ecLu4edLl4eeLu4efLl4f0Lu
4f1Ll4f2Lu4f3Ll4f4Lu4f5Ll4f6Lu4f7Ll4f8Lu4f9Ll4faLu4fbLl4fcLu4fdLl4feLu4ffLl500Lu501Ll502Lu503Ll
504Lu505Ll506Lu507Ll508Lu509Ll50aLu50bLl50cLu50dLl50eLu50fLl510Lu511Ll512Lu513Ll514Lu515Ll516Lu
517Ll518Lu519Ll51aLu51bLl51cLu51dLl51eLu51fLl520Lu521Ll522Lu523Ll524Lu525Ll526Lu527Ll528Lu529Ll
52aLu52bLl52cLu52dLl52eLu52fLl530Cn531Lu557Cn559Lm55aPo560Ll589Po58aPd58bCn58dSo58fSc590Cn591Mn
5bePd5bfMn5c0Po5c1Mn5c3Po5c4Mn5c6Po5c7Mn5c8Cn5d0Lo5ebCn5efLo5f3Po5f5Cn600Cf606Sm609Po60bSc60cPo
60eSo610Mn61bPo61cCf61dPo620Lo640Lm641Lo64bMn660Nd66aPo66eLo670Mn671Lo6d4Po6d5Lo6d6Mn6ddCf6deSo
6dfMn6e5Lm6e7Mn6e9So6eaMn6eeLo6f0Nd6faLo6fdSo6ffLo700Po70eCn70fCf710Lo711Mn712Lo730Mn74bCn74dLo
7a6Mn7b1Lo7b2Cn7c0Nd7caLo7ebMn7f4Lm7f6So7f7Po7faLm7fbCn7fdMn7feSc800Lo816Mn81aLm81bMn824Lm825Mn
828Lm829Mn82eCn830Po83fCn840Lo859Mn85cCn85ePo85fCn860Lo86bCn870Lo888Sk889Lo88fCn890Cf892Cn898Mn
8a0Lo8c9Lm8caMn8e2Cf8e3Mn903Mc904Lo93aMn93bMc93cMn93dLo93eMc941Mn949Mc94dMn94eMc950Lo951Mn958Lo
962Mn964Po966Nd970Po971Lm972Lo981Mn982Mc984Cn985Lo98dCn98fLo991Cn993Lo9a9Cn9aaLo9b1Cn9b2Lo9b3Cn
9b6Lo9baCn9bcMn9bdLo9beMc9c1Mn9c5Cn9c7Mc9c9Cn9cbMc9cdMn9ceLo9cfCn9d7Mc9d8Cn9dcLo9deCn9dfLo9e2Mn
9e4Cn9e6Nd9f0Lo9f2Sc9f4No9faSo9fbSc9fcLo9fdPo9feMn9ffCna01Mna03Mca04Cna05Loa0bCna0fLoa11Cna13Lo
a29Cna2aLoa31Cna32Loa34Cna35Loa37Cna38Loa3aCna3cMna3dCna3eMca41Mna43Cna47Mna49Cna4bMna4eCna51Mn
a52Cna59Loa5dCna5eLoa5fCna66Nda70Mna72Loa75Mna76Poa77Cna81Mna83Mca84Cna85Loa8eCna8fLoa92Cna93Lo
aa9CnaaaLoab1Cnab2Loab4Cnab5LoabaCnabcMnabdLoabeMcac1Mnac6Cnac7Mnac9McacaCnacbMcacdMnaceCnad0Lo
ad1Cnae0Loae2Mnae4Cnae6Ndaf0Poaf1Scaf2Cnaf9LoafaMnb00Cnb01Mnb02Mcb04Cnb05Lob0dCnb0fLob11Cnb13Lo
b29Cnb2aLob31Cnb32Lob34Cnb35Lob3aCnb3cMnb3dLob3eMcb3fMnb40Mcb41Mnb45Cnb47Mcb49Cnb4bMcb4dMnb4eCn
b55Mnb57Mcb58Cnb5cLob5eCnb5fLob62Mnb64Cnb66Ndb70Sob71Lob72Nob78Cnb82Mnb83Lob84Cnb85Lob8bCnb8eLo
b91Cnb92Lob96Cnb99Lob9bCnb9cLob9dCnb9eLoba0Cnba3Loba5Cnba8LobabCnbaeLobbaCnbbeMcbc0Mnbc1Mcbc3Cn
bc6Mcbc9CnbcaMcbcdMnbceCnbd0Lobd1Cnbd7Mcbd8Cnbe6Ndbf0Nobf3Sobf9ScbfaSobfbCnc00Mnc01Mcc04Mnc05Lo
c0dCnc0eLoc11Cnc12Loc29Cnc2aLoc3aCnc3cMnc3dLoc3eMnc41Mcc45Cnc46Mnc49Cnc4aMnc4eCnc55Mnc57Cnc58Lo
c5bCnc5dLoc5eCnc60Loc62Mnc64Cnc66Ndc70Cnc77Poc78Noc7fSoc80Loc81Mnc82Mcc84Poc85Loc8dCnc8eLoc91Cn
c92Loca9CncaaLocb4Cncb5LocbaCncbcMncbdLocbeMccbfMncc0Mccc5Cncc6Mncc7Mccc9CnccaMccccMncceCncd5Mc
cd7CncddLocdfCnce0Loce2Mnce4Cnce6Ndcf0Cncf1Locf3Mccf4Cnd00Mnd02Mcd04Lod0dCnd0eLod11Cnd12Lod3bMn
d3dLod3eMcd41Mnd45Cnd46Mcd49Cnd4aMcd4dMnd4eLod4fSod50Cnd54Lod57Mcd58Nod5fLod62Mnd64Cnd66Ndd70No
d79Sod7aLod80Cnd81Mnd82Mcd84Cnd85Lod97Cnd9aLodb2Cndb3LodbcCndbdLodbeCndc0Lodc7CndcaMndcbCndcfMc
dd2Mndd5Cndd6Mndd7Cndd8Mcde0Cnde6Nddf0Cndf2Mcdf4Podf5Cne01Loe31Mne32Loe34Mne3bCne3fSce40Loe46Lm
e47Mne4fPoe50Nde5aPoe5cCne81Loe83Cne84Loe85Cne86Loe8bCne8cLoea4Cnea5Loea6Cnea7Loeb1Mneb2Loeb4Mn
ebdLoebeCnec0Loec5Cnec6Lmec7Cnec8MnecfCned0NdedaCnedcLoee0Cnf00Lof01Sof04Pof13Sof14Pof15Sof18Mn
f1aSof20Ndf2aNof34Sof35Mnf36Sof37Mnf38Sof39Mnf3aPsf3bPef3cPsf3dPef3eMcf40Lof48Cnf49Lof6dCnf71Mn
f7fMcf80Mnf85Pof86Mnf88Lof8dMnf98Cnf99MnfbdCnfbeSofc6Mnfc7SofcdCnfceSofd0Pofd5Sofd9PofdbCn1000Lo
102bMc102dMn1031Mc1032Mn1038Mc1039Mn103bMc103dMn103fLo1040Nd104aPo1050Lo1056Mc1058Mn105aLo105eMn
1061Lo1062Mc1065Lo1067Mc106eLo1071Mn1075Lo1082Mn1083Mc1085Mn1087Mc108dMn108eLo108fMc1090Nd109aMc
109dMn109eSo10a0Lu10c6Cn10c7Lu10c8Cn10cdLu10ceCn10d0Ll10fbPo10fcLm10fdLl1100Lo1249Cn124aLo124eCn
1250Lo1257Cn1258Lo1259Cn125aLo125eCn1260Lo1289Cn128aLo128eCn1290Lo12b1Cn12b2Lo12b6Cn12b8Lo12bfCn
12c0Lo12c1Cn12c2Lo12c6Cn12c8Lo12d7Cn12d8Lo1311Cn1312Lo1316Cn1318Lo135bCn135dMn1360Po1369No137dCn
1380Lo1390So139aCn13a0Lu13f6Cn13f8Ll13feCn1400Pd1401Lo166dSo166ePo166fLo1680Zs1681Lo169bPs169cPe
169dCn16a0Lo16ebPo16eeNl16f1Lo16f9Cn1700Lo1712Mn1715Mc1716Cn171fLo1732Mn1734Mc1735Po1737Cn1740Lo
1752Mn1754Cn1760Lo176dCn176eLo1771Cn1772Mn1774Cn1780Lo17b4Mn17b6Mc17b7Mn17beMc17c6Mn17c7Mc17c9Mn
17d4Po17d7Lm17d8Po17dbSc17dcLo17ddMn17deCn17e0Nd17eaCn17f0No17faCn1800Po1806Pd1807Po180bMn180eCf
180fMn1810Nd181aCn1820Lo1843Lm1844Lo1879Cn1880Lo1885Mn1887Lo18a9Mn18aaLo18abCn18b0Lo18f6Cn1900Lo
191fCn1920Mn1923Mc1927Mn1929Mc192cCn1930Mc1932Mn1933Mc1939Mn193cCn1940So1941Cn1944Po1946Nd1950Lo
196eCn1970Lo1975Cn1980Lo19acCn19b0Lo19caCn19d0Nd19daNo19dbCn19deSo1a00Lo1a17Mn1a19Mc1a1bMn1a1cCn
1a1ePo1a20Lo1a55Mc1a56Mn1a57Mc1a58Mn1a5fCn1a60Mn1a61Mc1a62Mn1a63Mc1a65Mn1a6dMc1a73Mn1a7dCn1a7fMn
1a80Nd1a8aCn1a90Nd1a9aCn1aa0Po1aa7Lm1aa8Po1aaeCn1ab0Mn1abeMe1abfMn1acfCn1b00Mn1b04Mc1b05Lo1b34Mn
1b35Mc1b36Mn1b3bMc1b3cMn1b3dMc1b42Mn1b43Mc1b45Lo1b4dCn1b50Nd1b5aPo1b61So1b6bMn1b74So1b7dPo1b7fCn
1b80Mn1b82Mc1b83Lo1ba1Mc1ba2Mn1ba6Mc1ba8Mn1baaMc1babMn1baeLo1bb0Nd1bbaLo1be6Mn1be7Mc1be8Mn1beaMc
1bedMn1beeMc1befMn1bf2Mc1bf4Cn1bfcPo1c00Lo1c24Mc1c2cMn1c34Mc1c36Mn1c38Cn1c3bPo1c40Nd1c4aCn1c4dLo
1c50Nd1c5aLo1c78Lm1c7ePo1c80Ll1c89Cn1c90Lu1cbbCn1cbdLu1cc0Po1cc8Cn1cd0Mn1cd3Po1cd4Mn1ce1Mc1ce2Mn
1ce9Lo1cedMn1ceeLo1cf4Mn1cf5Lo1cf7Mc1cf8Mn1cfaLo1cfbCn1d00Ll1d2cLm1d6bLl1d78Lm1d79Ll1d9bLm1dc0Mn
1e00Lu1e01Ll1e02Lu1e03Ll1e04Lu1e05Ll1e06Lu1e07Ll1e08Lu1e09Ll1e0aLu1e0bLl1e0cLu1e0dLl1e0eLu1e0fLl
1e10Lu1e11Ll1e12Lu1e13Ll1e14Lu1e15Ll1e16Lu1e17Ll1e18Lu1e19Ll1e1aLu1e1bLl1e1cLu1e1dLl1e1eLu1e1fLl
1e20Lu1e21Ll1e22Lu1e23Ll1e24Lu1e25Ll1e26Lu1e27Ll1e28Lu1e29Ll1e2aLu1e2bLl1e2cLu1e2dLl1e2eLu1e2fLl
1e30Lu1e31Ll1e32Lu1e33Ll1e34Lu1e35Ll1e36Lu1e37Ll1e38Lu1e39Ll1e3aLu1e3bLl1e3cLu1e3dLl1e3eLu1e3fLl
1e40Lu1e41Ll1e42Lu1e43Ll1e44Lu1e45Ll1e46Lu1e47Ll1e48Lu1e49Ll1e4aLu1e4bLl1e4cLu1e4dLl1e4eLu1e4fLl
1e50Lu1e51Ll1e52Lu1e53Ll1e54Lu1e55Ll1e56Lu1e57Ll1e58Lu1e59Ll1e5aLu1e5bLl1e5cLu1e5dLl1e5eLu1e5fLl
1e60Lu1e61Ll1e62Lu1e63Ll1e64Lu1e65Ll1e66Lu1e67Ll1e68Lu1e69Ll1e6aLu1e6bLl1e6cLu1e6dLl1e6eLu1e6fLl
1e70Lu1e71Ll1e72Lu1e73Ll1e74Lu1e75Ll1e76Lu1e77Ll1e78Lu1e79Ll1e7aLu1e7bLl1e7cLu1e7dLl1e7eLu1e7fLl
1e80Lu1e81Ll1e82Lu1e83Ll1e84Lu1e85Ll1e86Lu1e87Ll1e88Lu1e89Ll1e8aLu1e8bLl1e8cLu1e8dLl1e8eLu1e8fLl
1e90Lu1e91Ll1e92Lu1e93Ll1e94Lu1e95Ll1e9eLu1e9fLl1ea0Lu1ea1Ll1ea2Lu1ea3Ll1ea4Lu1ea5Ll1ea6Lu1ea7Ll
1ea8Lu1ea9Ll1eaaLu1eabLl1eacLu1eadLl1eaeLu1eafLl1eb0Lu1eb1Ll1eb2Lu1eb3Ll1eb4Lu1eb5Ll1eb6Lu1eb7Ll
1eb8Lu1eb9Ll1ebaLu1ebbLl1ebcLu1ebdLl1ebeLu1ebfLl1ec0Lu1ec1Ll1ec2Lu1ec3Ll1ec4Lu1ec5Ll1ec6Lu1ec7Ll
1ec8Lu1ec9Ll1ecaLu1ecbLl1eccLu1ecdLl1eceLu1ecfLl1ed0Lu1ed1Ll1ed2Lu1ed3Ll1ed4Lu1ed5Ll1ed6Lu1ed7Ll
1ed8Lu1ed9Ll1edaLu1edbLl1edcLu1eddLl1edeLu1edfLl1ee0Lu1ee1Ll1ee2Lu1ee3Ll1ee4Lu1ee5Ll1ee6Lu1ee7Ll
1ee8Lu1ee9Ll1eeaLu1eebLl1eecLu1eedLl1eeeLu1eefLl1ef0Lu1ef1Ll1ef2Lu1ef3Ll1ef4Lu1ef5Ll1ef6Lu1ef7Ll
1ef8Lu1ef9Ll1efaLu1efbLl1efcLu1efdLl1efeLu1effLl1f08Lu1f10Ll1f16Cn1f18Lu1f1eCn1f20Ll1f28Lu1f30Ll
1f38Lu1f40Ll1f46Cn1f48Lu1f4eCn1f50Ll1f58Cn1f59Lu1f5aCn1f5bLu1f5cCn1f5dLu1f5eCn1f5fLu1f60Ll1f68Lu
1f70Ll1f7eCn1f80Ll1f88Lt1f90Ll1f98Lt1fa0Ll1fa8Lt1fb0Ll1fb5Cn1fb6Ll1fb8Lu1fbcLt1fbdSk1fbeLl1fbfSk
1fc2Ll1fc5Cn1fc6Ll1fc8Lu1fccLt1fcdSk1fd0Ll1fd4Cn1fd6Ll1fd8Lu1fdcCn1fddSk1fe0Ll1fe8Lu1fedSk1ff0Cn
1ff2Ll1ff5Cn1ff6Ll1ff8Lu1ffcLt1ffdSk1fffCn2000Zs200bCf2010Pd2016Po2018Pi2019Pf201aPs201bPi201dPf
201ePs201fPi2020Po2028Zl2029Zp202aCf202fZs2030Po2039Pi203aPf203bPo203fPc2041Po2044Sm2045Ps2046Pe
2047Po2052Sm2053Po2054Pc2055Po205fZs2060Cf2065Cn2066Cf2070No2071Lm2072Cn2074No207aSm207dPs207ePe
207fLm2080No208aSm208dPs208ePe208fCn2090Lm209dCn20a0Sc20c1Cn20d0Mn20ddMe20e1Mn20e2Me20e5Mn20f1Cn
2100So2102Lu2103So2107Lu2108So210aLl210bLu210eLl2110Lu2113Ll2114So2115Lu2116So2118Sm2119Lu211eSo
2124Lu2125So2126Lu2127So2128Lu2129So212aLu212eSo212fLl2130Lu2134Ll2135Lo2139Ll213aSo213cLl213eLu
2140Sm2145Lu2146Ll214aSo214bSm214cSo214eLl214fSo2150No2160Nl2183Lu2184Ll2185Nl2189No218aSo218cCn
2190Sm2195So219aSm219cSo21a0Sm21a1So21a3Sm21a4So21a6Sm21a7So21aeSm21afSo21ceSm21d0So21d2Sm21d3So
21d4Sm21d5So21f4Sm2300So2308Ps2309Pe230aPs230bPe230cSo2320Sm2322So2329Ps232aPe232bSo237cSm237dSo
239bSm23b4So23dcSm23e2So2427Cn2440So244bCn2460No249cSo24eaNo2500So25b7Sm25b8So25c1Sm25c2So25f8Sm
2600So266fSm2670So2768Ps2769Pe276aPs276bPe276cPs276dPe276ePs276fPe2770Ps2771Pe2772Ps2773Pe2774Ps
2775Pe2776No2794So27c0Sm27c5Ps27c6Pe27c7Sm27e6Ps27e7Pe27e8Ps27e9Pe27eaPs27ebPe27ecPs27edPe27eePs
27efPe27f0Sm2800So2900Sm2983Ps2984Pe2985Ps2986Pe2987Ps2988Pe2989Ps298aPe298bPs298cPe298dPs298ePe
298fPs2990Pe2991Ps2992Pe2993Ps2994Pe2995Ps2996Pe2997Ps2998Pe2999Sm29d8Ps29d9Pe29daPs29dbPe29dcSm
29fcPs29fdPe29feSm2b00So2b30Sm2b45So2b47Sm2b4dSo2b74Cn2b76So2b96Cn2b97So2c00Lu2c30Ll2c60Lu2c61Ll
2c62Lu2c65Ll2c67Lu2c68Ll2c69Lu2c6aLl2c6bLu2c6cLl2c6dLu2c71Ll2c72Lu2c73Ll2c75Lu2c76Ll2c7cLm2c7eLu
2c81Ll2c82Lu2c83Ll2c84Lu2c85Ll2c86Lu2c87Ll2c88Lu2c89Ll2c8aLu2c8bLl2c8cLu2c8dLl2c8eLu2c8fLl2c90Lu
2c91Ll2c92Lu2c93Ll2c94Lu2c95Ll2c96Lu2c97Ll2c98Lu2c99Ll2c9aLu2c9bLl2c9cLu2c9dLl2c9eLu2c9fLl2ca0Lu
2ca1Ll2ca2Lu2ca3Ll2ca4Lu2ca5Ll2ca6Lu2ca7Ll2ca8Lu2ca9Ll2caaLu2cabLl2cacLu2cadLl2caeLu2cafLl2cb0Lu
2cb1Ll2cb2Lu2cb3Ll2cb4Lu2cb5Ll2cb6Lu2cb7Ll2cb8Lu2cb9Ll2cbaLu2cbbLl2cbcLu2cbdLl2cbeLu2cbfLl2cc0Lu
2cc1Ll2cc2Lu2cc3Ll2cc4Lu2cc5Ll2cc6Lu2cc7Ll2cc8Lu2cc9Ll2ccaLu2ccbLl2cccLu2ccdLl2cceLu2ccfLl2cd0Lu
2cd1Ll2cd2Lu2cd3Ll2cd4Lu2cd5Ll2cd6Lu2cd7Ll2cd8Lu2cd9Ll2cdaLu2cdbLl2cdcLu2cddLl2cdeLu2cdfLl2ce0Lu
2ce1Ll2ce2Lu2ce3Ll2ce5So2cebLu2cecLl2cedLu2ceeLl2cefMn2cf2Lu2cf3Ll2cf4Cn2cf9Po2cfdNo2cfePo2d00Ll
2d26Cn2d27Ll2d28Cn2d2dLl2d2eCn2d30Lo2d68Cn2d6fLm2d70Po2d71Cn2d7fMn2d80Lo2d97Cn2da0Lo2da7Cn2da8Lo
2dafCn2db0Lo2db7Cn2db8Lo2dbfCn2dc0Lo2dc7Cn2dc8Lo2dcfCn2dd0Lo2dd7Cn2dd8Lo2ddfCn2de0Mn2e00Po2e02Pi
2e03Pf2e04Pi2e05Pf2e06Po2e09Pi2e0aPf2e0bPo2e0cPi2e0dPf2e0ePo2e17Pd2e18Po2e1aPd2e1bPo2e1cPi2e1dPf
2e1ePo2e20Pi2e21Pf2e22Ps2e23Pe2e24Ps2e25Pe2e26Ps2e27Pe2e28Ps2e29Pe2e2aPo2e2fLm2e30Po2e3aPd2e3cPo
2e40Pd2e41Po2e42Ps2e43Po2e50So2e52Po2e55Ps2e56Pe2e57Ps2e58Pe2e59Ps2e5aPe2e5bPs2e5cPe2e5dPd2e5eCn
2e80So2e9aCn2e9bSo2ef4Cn2f00So2fd6Cn2ff0So2ffcCn3000Zs3001Po3004So3005Lm3006Lo3007Nl3008Ps3009Pe
300aPs300bPe300cPs300dPe300ePs300fPe3010Ps3011Pe3012So3014Ps3015Pe3016Ps3017Pe3018Ps3019Pe301aPs
301bPe301cPd301dPs301ePe3020So3021Nl302aMn302eMc3030Pd3031Lm3036So3038Nl303bLm303cLo303dPo303eSo
3040Cn3041Lo3097Cn3099Mn309bSk309dLm309fLo30a0Pd30a1Lo30fbPo30fcLm30ffLo3100Cn3105Lo3130Cn3131Lo
318fCn3190So3192No3196So31a0Lo31c0So31e4Cn31f0Lo3200So321fCn3220No322aSo3248No3250So3251No3260So
3280No328aSo32b1No32c0So3400Lo4dc0So4e00Loa015Lma016Loa48dCna490Soa4c7Cna4d0Loa4f8Lma4fePoa500Lo
a60cLma60dPoa610Loa620Nda62aLoa62cCna640Lua641Lla642Lua643Lla644Lua645Lla646Lua647Lla648Lua649Ll
a64aLua64bLla64cLua64dLla64eLua64fLla650Lua651Lla652Lua653Lla654Lua655Lla656Lua657Lla658Lua659Ll
a65aLua65bLla65cLua65dLla65eLua65fLla660Lua661Lla662Lua663Lla664Lua665Lla666Lua667Lla668Lua669Ll
a66aLua66bLla66cLua66dLla66eLoa66fMna670Mea673Poa674Mna67ePoa67fLma680Lua681Lla682Lua683Lla684Lu
a685Lla686Lua687Lla688Lua689Lla68aLua68bLla68cLua68dLla68eLua68fLla690Lua691Lla692Lua693Lla694Lu
a695Lla696Lua697Lla698Lua699Lla69aLua69bLla69cLma69eMna6a0Loa6e6Nla6f0Mna6f2Poa6f8Cna700Ska717Lm
a720Ska722Lua723Lla724Lua725Lla726Lua727Lla728Lua729Lla72aLua72bLla72cLua72dLla72eLua72fLla732Lu
a733Lla734Lua735Lla736Lua737Lla738Lua739Lla73aLua73bLla73cLua73dLla73eLua73fLla740Lua741Lla742Lu
a743Lla744Lua745Lla746Lua747Lla748Lua749Lla74aLua74bLla74cLua74dLla74eLua74fLla750Lua751Lla752Lu
a753Lla754Lua755Lla756Lua757Lla758Lua759Lla75aLua75bLla75cLua75dLla75eLua75fLla760Lua761Lla762Lu
a763Lla764Lua765Lla766Lua767Lla768Lua769Lla76aLua76bLla76cLua76dLla76eLua76fLla770Lma771Lla779Lu
a77aLla77bLua77cLla77dLua77fLla780Lua781Lla782Lua783Lla784Lua785Lla786Lua787Lla788Lma789Ska78bLu
a78cLla78dLua78eLla78fLoa790Lua791Lla792Lua793Lla796Lua797Lla798Lua799Lla79aLua79bLla79cLua79dLl
a79eLua79fLla7a0Lua7a1Lla7a2Lua7a3Lla7a4Lua7a5Lla7a6Lua7a7Lla7a8Lua7a9Lla7aaLua7afLla7b0Lua7b5Ll
a7b6Lua7b7Lla7b8Lua7b9Lla7baLua7bbLla7bcLua7bdLla7beLua7bfLla7c0Lua7c1Lla7c2Lua7c3Lla7c4Lua7c8Ll
a7c9Lua7caLla7cbCna7d0Lua7d1Lla7d2Cna7d3Lla7d4Cna7d5Lla7d6Lua7d7Lla7d8Lua7d9Lla7daCna7f2Lma7f5Lu
a7f6Lla7f7Loa7f8Lma7faLla7fbLoa802Mna803Loa806Mna807Loa80bMna80cLoa823Mca825Mna827Mca828Soa82cMn
a82dCna830Noa836Soa838Sca839Soa83aCna840Loa874Poa878Cna880Mca882Loa8b4Mca8c4Mna8c6Cna8cePoa8d0Nd
a8daCna8e0Mna8f2Loa8f8Poa8fbLoa8fcPoa8fdLoa8ffMna900Nda90aLoa926Mna92ePoa930Loa947Mna952Mca954Cn
a95fPoa960Loa97dCna980Mna983Mca984Loa9b3Mna9b4Mca9b6Mna9baMca9bcMna9beMca9c1Poa9ceCna9cfLma9d0Nd
a9daCna9dePoa9e0Loa9e5Mna9e6Lma9e7Loa9f0Nda9faLoa9ffCnaa00Loaa29Mnaa2fMcaa31Mnaa33Mcaa35Mnaa37Cn
aa40Loaa43Mnaa44Loaa4cMnaa4dMcaa4eCnaa50Ndaa5aCnaa5cPoaa60Loaa70Lmaa71Loaa77Soaa7aLoaa7bMcaa7cMn
aa7dMcaa7eLoaab0Mnaab1Loaab2Mnaab5Loaab7Mnaab9LoaabeMnaac0Loaac1Mnaac2Loaac3CnaadbLoaaddLmaadePo
aae0LoaaebMcaaecMnaaeeMcaaf0Poaaf2Loaaf3Lmaaf5Mcaaf6Mnaaf7Cnab01Loab07Cnab09Loab0fCnab11Loab17Cn
ab20Loab27Cnab28Loab2fCnab30Llab5bSkab5cLmab60Llab69Lmab6aSkab6cCnab70Llabc0Loabe3Mcabe5Mnabe6Mc
abe8Mnabe9McabebPoabecMcabedMnabeeCnabf0NdabfaCnac00Lod7a4Cnd7b0Lod7c7Cnd7cbLod7fcCnd800Cse000Co
f900Lofa6eCnfa70LofadaCnfb00Llfb07Cnfb13Llfb18Cnfb1dLofb1eMnfb1fLofb29Smfb2aLofb37Cnfb38Lofb3dCn
fb3eLofb3fCnfb40Lofb42Cnfb43Lofb45Cnfb46Lofbb2Skfbc3Cnfbd3Lofd3ePefd3fPsfd40Sofd50Lofd90Cnfd92Lo
fdc8CnfdcfSofdd0Cnfdf0LofdfcScfdfdSofe00Mnfe10Pofe17Psfe18Pefe19Pofe1aCnfe20Mnfe30Pofe31Pdfe33Pc
fe35Psfe36Pefe37Psfe38Pefe39Psfe3aPefe3bPsfe3cPefe3dPsfe3ePefe3fPsfe40Pefe41Psfe42Pefe43Psfe44Pe
fe45Pofe47Psfe48Pefe49Pofe4dPcfe50Pofe53Cnfe54Pofe58Pdfe59Psfe5aPefe5bPsfe5cPefe5dPsfe5ePefe5fPo
fe62Smfe63Pdfe64Smfe67Cnfe68Pofe69Scfe6aPofe6cCnfe70Lofe75Cnfe76LofefdCnfeffCfff00Cnff01Poff04Sc
ff05Poff08Psff09Peff0aPoff0bSmff0cPoff0dPdff0ePoff10Ndff1aPoff1cSmff1fPoff21Luff3bPsff3cPoff3dPe
ff3eSkff3fPcff40Skff41Llff5bPsff5cSmff5dPeff5eSmff5fPsff60Peff61Poff62Psff63Peff64Poff66Loff70Lm
ff71Loff9eLmffa0LoffbfCnffc2Loffc8CnffcaLoffd0Cnffd2Loffd8CnffdaLoffddCnffe0Scffe2Smffe3Skffe4So
ffe5Scffe7Cnffe8Soffe9SmffedSoffefCnfff9CffffcSofffeCn10000Lo1000cCn1000dLo10027Cn10028Lo1003bCn
1003cLo1003eCn1003fLo1004eCn10050Lo1005eCn10080Lo100fbCn10100Po10103Cn10107No10134Cn10137So
10140Nl10175No10179So1018aNo1018cSo1018fCn10190So1019dCn101a0So101a1Cn101d0So101fdMn101feCn
10280Lo1029dCn102a0Lo102d1Cn102e0Mn102e1No102fcCn10300Lo10320No10324Cn1032dLo10341Nl10342Lo
1034aNl1034bCn10350Lo10376Mn1037bCn10380Lo1039eCn1039fPo103a0Lo103c4Cn103c8Lo103d0Po103d1Nl
103d6Cn10400Lu10428Ll10450Lo1049eCn104a0Nd104aaCn104b0Lu104d4Cn104d8Ll104fcCn10500Lo10528Cn
10530Lo10564Cn1056fPo10570Lu1057bCn1057cLu1058bCn1058cLu10593Cn10594Lu10596Cn10597Ll105a2Cn
105a3Ll105b2Cn105b3Ll105baCn105bbLl105bdCn10600Lo10737Cn10740Lo10756Cn10760Lo10768Cn10780Lm
10786Cn10787Lm107b1Cn107b2Lm107bbCn10800Lo10806Cn10808Lo10809Cn1080aLo10836Cn10837Lo10839Cn
1083cLo1083dCn1083fLo10856Cn10857Po10858No10860Lo10877So10879No10880Lo1089fCn108a7No108b0Cn
108e0Lo108f3Cn108f4Lo108f6Cn108fbNo10900Lo10916No1091cCn1091fPo10920Lo1093aCn1093fPo10940Cn
10980Lo109b8Cn109bcNo109beLo109c0No109d0Cn109d2No10a00Lo10a01Mn10a04Cn10a05Mn10a07Cn10a0cMn
10a10Lo10a14Cn10a15Lo10a18Cn10a19Lo10a36Cn10a38Mn10a3bCn10a3fMn10a40No10a49Cn10a50Po10a59Cn
10a60Lo10a7dNo10a7fPo10a80Lo10a9dNo10aa0Cn10ac0Lo10ac8So10ac9Lo10ae5Mn10ae7Cn10aebNo10af0Po
10af7Cn10b00Lo10b36Cn10b39Po10b40Lo10b56Cn10b58No10b60Lo10b73Cn10b78No10b80Lo10b92Cn10b99Po
10b9dCn10ba9No10bb0Cn10c00Lo10c49Cn10c80Lu10cb3Cn10cc0Ll10cf3Cn10cfaNo10d00Lo10d24Mn10d28Cn
10d30Nd10d3aCn10e60No10e7fCn10e80Lo10eaaCn10eabMn10eadPd10eaeCn10eb0Lo10eb2Cn10efdMn10f00Lo
10f1dNo10f27Lo10f28Cn10f30Lo10f46Mn10f51No10f55Po10f5aCn10f70Lo10f82Mn10f86Po10f8aCn10fb0Lo
10fc5No10fccCn10fe0Lo10ff7Cn11000Mc11001Mn11002Mc11003Lo11038Mn11047Po1104eCn11052No11066Nd
11070Mn11071Lo11073Mn11075Lo11076Cn1107fMn11082Mc11083Lo110b0Mc110b3Mn110b7Mc110b9Mn110bbPo
110bdCf110bePo110c2Mn110c3Cn110cdCf110ceCn110d0Lo110e9Cn110f0Nd110faCn11100Mn11103Lo11127Mn
1112cMc1112dMn11135Cn11136Nd11140Po11144Lo11145Mc11147Lo11148Cn11150Lo11173Mn11174Po11176Lo
11177Cn11180Mn11182Mc11183Lo111b3Mc111b6Mn111bfMc111c1Lo111c5Po111c9Mn111cdPo111ceMc111cfMn
111d0Nd111daLo111dbPo111dcLo111ddPo111e0Cn111e1No111f5Cn11200Lo11212Cn11213Lo1122cMc1122fMn
11232Mc11234Mn11235Mc11236Mn11238Po1123eMn1123fLo11241Mn11242Cn11280Lo11287Cn11288Lo11289Cn
1128aLo1128eCn1128fLo1129eCn1129fLo112a9Po112aaCn112b0Lo112dfMn112e0Mc112e3Mn112ebCn112f0Nd
112faCn11300Mn11302Mc11304Cn11305Lo1130dCn1130fLo11311Cn11313Lo11329Cn1132aLo11331Cn11332Lo
11334Cn11335Lo1133aCn1133bMn1133dLo1133eMc11340Mn11341Mc11345Cn11347Mc11349Cn1134bMc1134eCn
11350Lo11351Cn11357Mc11358Cn1135dLo11362Mc11364Cn11366Mn1136dCn11370Mn11375Cn11400Lo11435Mc
11438Mn11440Mc11442Mn11445Mc11446Mn11447Lo1144bPo11450Nd1145aPo1145cCn1145dPo1145eMn1145fLo
11462Cn11480Lo114b0Mc114b3Mn114b9Mc114baMn114bbMc114bfMn114c1Mc114c2Mn114c4Lo114c6Po114c7Lo
114c8Cn114d0Nd114daCn11580Lo115afMc115b2Mn115b6Cn115b8Mc115bcMn115beMc115bfMn115c1Po115d8Lo
115dcMn115deCn11600Lo11630Mc11633Mn1163bMc1163dMn1163eMc1163fMn11641Po11644Lo11645Cn11650Nd
1165aCn11660Po1166dCn11680Lo116abMn116acMc116adMn116aeMc116b0Mn116b6Mc116b7Mn116b8Lo116b9Po
116baCn116c0Nd116caCn11700Lo1171bCn1171dMn11720Mc11722Mn11726Mc11727Mn1172cCn11730Nd1173aNo
1173cPo1173fSo11740Lo11747Cn11800Lo1182cMc1182fMn11838Mc11839Mn1183bPo1183cCn118a0Lu118c0Ll
118e0Nd118eaNo118f3Cn118ffLo11907Cn11909Lo1190aCn1190cLo11914Cn11915Lo11917Cn11918Lo11930Mc
11936Cn11937Mc11939Cn1193bMn1193dMc1193eMn1193fLo11940Mc11941Lo11942Mc11943Mn11944Po11947Cn
11950Nd1195aCn119a0Lo119a8Cn119aaLo119d1Mc119d4Mn119d8Cn119daMn119dcMc119e0Mn119e1Lo119e2Po
119e3Lo119e4Mc119e5Cn11a00Lo11a01Mn11a0bLo11a33Mn11a39Mc11a3aLo11a3bMn11a3fPo11a47Mn11a48Cn
11a50Lo11a51Mn11a57Mc11a59Mn11a5cLo11a8aMn11a97Mc11a98Mn11a9aPo11a9dLo11a9ePo11aa3Cn11ab0Lo
11af9Cn11b00Po11b0aCn11c00Lo11c09Cn11c0aLo11c2fMc11c30Mn11c37Cn11c38Mn11c3eMc11c3fMn11c40Lo
11c41Po11c46Cn11c50Nd11c5aNo11c6dCn11c70Po11c72Lo11c90Cn11c92Mn11ca8Cn11ca9Mc11caaMn11cb1Mc
11cb2Mn11cb4Mc11cb5Mn11cb7Cn11d00Lo11d07Cn11d08Lo11d0aCn11d0bLo11d31Mn11d37Cn11d3aMn11d3bCn
11d3cMn11d3eCn11d3fMn11d46Lo11d47Mn11d48Cn11d50Nd11d5aCn11d60Lo11d66Cn11d67Lo11d69Cn11d6aLo
11d8aMc11d8fCn11d90Mn11d92Cn11d93Mc11d95Mn11d96Mc11d97Mn11d98Lo11d99Cn11da0Nd11daaCn11ee0Lo
11ef3Mn11ef5Mc11ef7Po11ef9Cn11f00Mn11f02Lo11f03Mc11f04Lo11f11Cn11f12Lo11f34Mc11f36Mn11f3bCn
11f3eMc11f40Mn11f41Mc11f42Mn11f43Po11f50Nd11f5aCn11fb0Lo11fb1Cn11fc0No11fd5So11fddSc11fe1So
11ff2Cn11fffPo12000Lo1239aCn12400Nl1246fCn12470Po12475Cn12480Lo12544Cn12f90Lo12ff1Po12ff3Cn
13000Lo13430Cf13440Mn13441Lo13447Mn13456Cn14400Lo14647Cn16800Lo16a39Cn16a40Lo16a5fCn16a60Nd
16a6aCn16a6ePo16a70Lo16abfCn16ac0Nd16acaCn16ad0Lo16aeeCn16af0Mn16af5Po16af6Cn16b00Lo16b30Mn
16b37Po16b3cSo16b40Lm16b44Po16b45So16b46Cn16b50Nd16b5aCn16b5bNo16b62Cn16b63Lo16b78Cn16b7dLo
16b90Cn16e40Lu16e60Ll16e80No16e97Po16e9bCn16f00Lo16f4bCn16f4fMn16f50Lo16f51Mc16f88Cn16f8fMn
16f93Lm16fa0Cn16fe0Lm16fe2Po16fe3Lm16fe4Mn16fe5Cn16ff0Mc16ff2Cn17000Lo187f8Cn18800Lo18cd6Cn
18d00Lo18d09Cn1aff0Lm1aff4Cn1aff5Lm1affcCn1affdLm1afffCn1b000Lo1b123Cn1b132Lo1b133Cn1b150Lo
1b153Cn1b155Lo1b156Cn1b164Lo1b168Cn1b170Lo1b2fcCn1bc00Lo1bc6bCn1bc70Lo1bc7dCn1bc80Lo1bc89Cn
1bc90Lo1bc9aCn1bc9cSo1bc9dMn1bc9fPo1bca0Cf1bca4Cn1cf00Mn1cf2eCn1cf30Mn1cf47Cn1cf50So1cfc4Cn
1d000So1d0f6Cn1d100So1d127Cn1d129So1d165Mc1d167Mn1d16aSo1d16dMc1d173Cf1d17bMn1d183So1d185Mn
1d18cSo1d1aaMn1d1aeSo1d1ebCn1d200So1d242Mn1d245So1d246Cn1d2c0No1d2d4Cn1d2e0No1d2f4Cn1d300So
1d357Cn1d360No1d379Cn1d400Lu1d41aLl1d434Lu1d44eLl1d455Cn1d456Ll1d468Lu1d482Ll1d49cLu1d49dCn
1d49eLu1d4a0Cn1d4a2Lu1d4a3Cn1d4a5Lu1d4a7Cn1d4a9Lu1d4adCn1d4aeLu1d4b6Ll1d4baCn1d4bbLl1d4bcCn
1d4bdLl1d4c4Cn1d4c5Ll1d4d0Lu1d4eaLl1d504Lu1d506Cn1d507Lu1d50bCn1d50dLu1d515Cn1d516Lu1d51dCn
1d51eLl1d538Lu1d53aCn1d53bLu1d53fCn1d540Lu1d545Cn1d546Lu1d547Cn1d54aLu1d551Cn1d552Ll1d56cLu
1d586Ll1d5a0Lu1d5baLl1d5d4Lu1d5eeLl1d608Lu1d622Ll1d63cLu1d656Ll1d670Lu1d68aLl1d6a6Cn1d6a8Lu
1d6c1Sm1d6c2Ll1d6dbSm1d6dcLl1d6e2Lu1d6fbSm1d6fcLl1d715Sm1d716Ll1d71cLu1d735Sm1d736Ll1d74fSm
1d750Ll1d756Lu1d76fSm1d770Ll1d789Sm1d78aLl1d790Lu1d7a9Sm1d7aaLl1d7c3Sm1d7c4Ll1d7caLu1d7cbLl
1d7ccCn1d7ceNd1d800So1da00Mn1da37So1da3bMn1da6dSo1da75Mn1da76So1da84Mn1da85So1da87Po1da8cCn
1da9bMn1daa0Cn1daa1Mn1dab0Cn1df00Ll1df0aLo1df0bLl1df1fCn1df25Ll1df2bCn1e000Mn1e007Cn1e008Mn
1e019Cn1e01bMn1e022Cn1e023Mn1e025Cn1e026Mn1e02bCn1e030Lm1e06eCn1e08fMn1e090Cn1e100Lo1e12dCn
1e130Mn1e137Lm1e13eCn1e140Nd1e14aCn1e14eLo1e14fSo1e150Cn1e290Lo1e2aeMn1e2afCn1e2c0Lo1e2ecMn
1e2f0Nd1e2faCn1e2ffSc1e300Cn1e4d0Lo1e4ebLm1e4ecMn1e4f0Nd1e4faCn1e7e0Lo1e7e7Cn1e7e8Lo1e7ecCn
1e7edLo1e7efCn1e7f0Lo1e7ffCn1e800Lo1e8c5Cn1e8c7No1e8d0Mn1e8d7Cn1e900Lu1e922Ll1e944Mn1e94bLm
1e94cCn1e950Nd1e95aCn1e95ePo1e960Cn1ec71No1ecacSo1ecadNo1ecb0Sc1ecb1No1ecb5Cn1ed01No1ed2eSo
1ed2fNo1ed3eCn1ee00Lo1ee04Cn1ee05Lo1ee20Cn1ee21Lo1ee23Cn1ee24Lo1ee25Cn1ee27Lo1ee28Cn1ee29Lo
1ee33Cn1ee34Lo1ee38Cn1ee39Lo1ee3aCn1ee3bLo1ee3cCn1ee42Lo1ee43Cn1ee47Lo1ee48Cn1ee49Lo1ee4aCn
1ee4bLo1ee4cCn1ee4dLo1ee50Cn1ee51Lo1ee53Cn1ee54Lo1ee55Cn1ee57Lo1ee58Cn1ee59Lo1ee5aCn1ee5bLo
1ee5cCn1ee5dLo1ee5eCn1ee5fLo1ee60Cn1ee61Lo1ee63Cn1ee64Lo1ee65Cn1ee67Lo1ee6bCn1ee6cLo1ee73Cn
1ee74Lo1ee78Cn1ee79Lo1ee7dCn1ee7eLo1ee7fCn1ee80Lo1ee8aCn1ee8bLo1ee9cCn1eea1Lo1eea4Cn1eea5Lo
1eeaaCn1eeabLo1eebcCn1eef0Sm1eef2Cn1f000So1f02cCn1f030So1f094Cn1f0a0So1f0afCn1f0b1So1f0c0Cn
1f0c1So1f0d0Cn1f0d1So1f0f6Cn1f100No1f10dSo1f1aeCn1f1e6So1f203Cn1f210So1f23cCn1f240So1f249Cn
1f250So1f252Cn1f260So1f266Cn1f300So1f3fbSk1f400So1f6d8Cn1f6dcSo1f6edCn1f6f0So1f6fdCn1f700So
1f777Cn1f77bSo1f7daCn1f7e0So1f7ecCn1f7f0So1f7f1Cn1f800So1f80cCn1f810So1f848Cn1f850So1f85aCn
1f860So1f888Cn1f890So1f8aeCn1f8b0So1f8b2Cn1f900So1fa54Cn1fa60So1fa6eCn1fa70So1fa7dCn1fa80So
1fa89Cn1fa90So1fabeCn1fabfSo1fac6Cn1faceSo1fadcCn1fae0So1fae9Cn1faf0So1faf9Cn1fb00So1fb93Cn
1fb94So1fbcbCn1fbf0Nd1fbfaCn20000Lo2a6e0Cn2a700Lo2b73aCn2b740Lo2b81eCn2b820Lo2cea2Cn2ceb0Lo
2ebe1Cn2f800Lo2fa1eCn30000Lo3134bCn31350Lo323b0Cne0001Cfe0002Cne0020Cfe0080Cne0100Mne01f0Cn
f0000CoffffeCn100000Co10fffeCn"

/-- Letters by property and not by category. -/
def otherAlphabeticText : String := "345 5b0-5bd 5bf 5c1-5c2 5c4-5c5 5c7 610-61a 64b-657 659-65f 670 6d6-6dc 6e1-6e4 6e7-6e8 6ed 711 
730-73f 7a6-7b0 816-817 81b-823 825-827 829-82c 8d4-8df 8e3-8e9 8f0-903 93a-93b 93e-94c 94e-94f 
955-957 962-963 981-983 9be-9c4 9c7-9c8 9cb-9cc 9d7 9e2-9e3 a01-a03 a3e-a42 a47-a48 a4b-a4c a51 
a70-a71 a75 a81-a83 abe-ac5 ac7-ac9 acb-acc ae2-ae3 afa-afc b01-b03 b3e-b44 b47-b48 b4b-b4c 
b56-b57 b62-b63 b82 bbe-bc2 bc6-bc8 bca-bcc bd7 c00-c04 c3e-c44 c46-c48 c4a-c4c c55-c56 c62-c63 
c81-c83 cbe-cc4 cc6-cc8 cca-ccc cd5-cd6 ce2-ce3 cf3 d00-d03 d3e-d44 d46-d48 d4a-d4c d57 d62-d63 
d81-d83 dcf-dd4 dd6 dd8-ddf df2-df3 e31 e34-e3a e4d eb1 eb4-eb9 ebb-ebc ecd f71-f83 f8d-f97 
f99-fbc 102b-1036 1038 103b-103e 1056-1059 105e-1060 1062-1064 1067-106d 1071-1074 1082-108d 
108f 109a-109d 1712-1713 1732-1733 1752-1753 1772-1773 17b6-17c8 1885-1886 18a9 1920-192b 
1930-1938 1a17-1a1b 1a55-1a5e 1a61-1a74 1abf-1ac0 1acc-1ace 1b00-1b04 1b35-1b43 1b80-1b82 
1ba1-1ba9 1bac-1bad 1be7-1bf1 1c24-1c36 1de7-1df4 24b6-24e9 2de0-2dff a674-a67b a69e-a69f a802 
a80b a823-a827 a880-a881 a8b4-a8c3 a8c5 a8ff a926-a92a a947-a952 a980-a983 a9b4-a9bf a9e5 
aa29-aa36 aa43 aa4c-aa4d aa7b-aa7d aab0 aab2-aab4 aab7-aab8 aabe aaeb-aaef aaf5 abe3-abea fb1e 
10376-1037a 10a01-10a03 10a05-10a06 10a0c-10a0f 10d24-10d27 10eab-10eac 11000-11002 11038-11045 
11073-11074 11080-11082 110b0-110b8 110c2 11100-11102 11127-11132 11145-11146 11180-11182 
111b3-111bf 111ce-111cf 1122c-11234 11237 1123e 11241 112df-112e8 11300-11303 1133e-11344 
11347-11348 1134b-1134c 11357 11362-11363 11435-11441 11443-11445 114b0-114c1 115af-115b5 
115b8-115be 115dc-115dd 11630-1163e 11640 116ab-116b5 1171d-1172a 1182c-11838 11930-11935 
11937-11938 1193b-1193c 11940 11942 119d1-119d7 119da-119df 119e4 11a01-11a0a 11a35-11a39 
11a3b-11a3e 11a51-11a5b 11a8a-11a97 11c2f-11c36 11c38-11c3e 11c92-11ca7 11ca9-11cb6 11d31-11d36 
11d3a 11d3c-11d3d 11d3f-11d41 11d43 11d47 11d8a-11d8e 11d90-11d91 11d93-11d96 11ef3-11ef6 
11f00-11f01 11f03 11f34-11f3a 11f3e-11f40 16f4f 16f51-16f87 16f8f-16f92 16ff0-16ff1 1bc9e 
1e000-1e006 1e008-1e018 1e01b-1e021 1e023-1e024 1e026-1e02a 1e08f 1e947 1f130-1f149 1f150-1f169 
1f170-1f189 "

/-- Characters that extend the one before them, beside the marks that take no
room of their own. -/
def otherExtendText : String := "9be 9d7 b3e b57 bbe bd7 cc2 cd5-cd6 d3e d57 dcf ddf 1b35 200c 302e-302f ff9e-ff9f 1133e 11357 
114b0 114bd 115af 11930 1d165 1d16e-1d172 e0020-e007f "

/-- The general categories, decoded. -/
def categories : Array (Nat × String) := Runs.decodeLabelled categoryText

/-- `otherAlphabeticText`, decoded. -/
def otherAlphabetic : Array (Nat × Nat) := Runs.decodeRanges otherAlphabeticText

/-- `otherExtendText`, decoded. -/
def otherExtend : Array (Nat × Nat) := Runs.decodeRanges otherExtendText

end HttpSuite.Text.CategoryTable
