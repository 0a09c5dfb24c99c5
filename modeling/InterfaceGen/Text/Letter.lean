import InterfaceGen.Text.Basic
import InterfaceGen.Text.Run

/-! Letters and digits as Unicode defines them (version 17.0): the derived properties Lowercase and
Uppercase, Alphabetic as these two together with the remaining alphabetic characters, and the
numeric categories Nd, Nl and No. A word is a maximal run of letters, digits and underscores. -/

namespace InterfaceGen.Text

open Run

/-- The property Lowercase. -/
def lowercaseRuns : List Run :=
  [span 0x61 0x7a, one 0xaa, one 0xb5, one 0xba, span 0xdf 0xf6, span 0xf8 0xff,
   alternate 0x101 0x135, span 0x137 0x138, alternate 0x13a 0x146, span 0x148 0x149,
   alternate 0x14b 0x177, alternate 0x17a 0x17c, span 0x17e 0x180, alternate 0x183 0x185,
   one 0x188, span 0x18c 0x18d, one 0x192, one 0x195, span 0x199 0x19b, one 0x19e,
   alternate 0x1a1 0x1a5, one 0x1a8, span 0x1aa 0x1ab, one 0x1ad, one 0x1b0,
   alternate 0x1b4 0x1b6, span 0x1b9 0x1ba, span 0x1bd 0x1bf, one 0x1c6, one 0x1c9,
   alternate 0x1cc 0x1da, span 0x1dc 0x1dd, alternate 0x1df 0x1ed, span 0x1ef 0x1f0,
   alternate 0x1f3 0x1f5, alternate 0x1f9 0x231, span 0x233 0x239, one 0x23c, span 0x23f 0x240,
   one 0x242, alternate 0x247 0x24d, span 0x24f 0x293, span 0x296 0x2b8, span 0x2c0 0x2c1,
   span 0x2e0 0x2e4, one 0x345, alternate 0x371 0x373, one 0x377, span 0x37a 0x37d, one 0x390,
   span 0x3ac 0x3ce, span 0x3d0 0x3d1, span 0x3d5 0x3d7, alternate 0x3d9 0x3ed, span 0x3ef 0x3f3,
   one 0x3f5, one 0x3f8, span 0x3fb 0x3fc, span 0x430 0x45f, alternate 0x461 0x481,
   alternate 0x48b 0x4bf, alternate 0x4c2 0x4cc, span 0x4ce 0x4cf, alternate 0x4d1 0x52f,
   span 0x560 0x588, span 0x10d0 0x10fa, span 0x10fc 0x10ff, span 0x13f8 0x13fd,
   span 0x1c80 0x1c88, one 0x1c8a, span 0x1d00 0x1dbf, alternate 0x1e01 0x1e93,
   span 0x1e95 0x1e9d, alternate 0x1e9f 0x1efd, span 0x1eff 0x1f07, span 0x1f10 0x1f15,
   span 0x1f20 0x1f27, span 0x1f30 0x1f37, span 0x1f40 0x1f45, span 0x1f50 0x1f57,
   span 0x1f60 0x1f67, span 0x1f70 0x1f7d, span 0x1f80 0x1f87, span 0x1f90 0x1f97,
   span 0x1fa0 0x1fa7, span 0x1fb0 0x1fb4, span 0x1fb6 0x1fb7, one 0x1fbe, span 0x1fc2 0x1fc4,
   span 0x1fc6 0x1fc7, span 0x1fd0 0x1fd3, span 0x1fd6 0x1fd7, span 0x1fe0 0x1fe7,
   span 0x1ff2 0x1ff4, span 0x1ff6 0x1ff7, one 0x2071, one 0x207f, span 0x2090 0x209c, one 0x210a,
   span 0x210e 0x210f, one 0x2113, one 0x212f, one 0x2134, one 0x2139, span 0x213c 0x213d,
   span 0x2146 0x2149, one 0x214e, span 0x2170 0x217f, one 0x2184, span 0x24d0 0x24e9,
   span 0x2c30 0x2c5f, one 0x2c61, span 0x2c65 0x2c66, alternate 0x2c68 0x2c6c, one 0x2c71,
   span 0x2c73 0x2c74, span 0x2c76 0x2c7d, alternate 0x2c81 0x2ce1, span 0x2ce3 0x2ce4,
   alternate 0x2cec 0x2cee, one 0x2cf3, span 0x2d00 0x2d25, one 0x2d27, one 0x2d2d,
   alternate 0xa641 0xa66d, alternate 0xa681 0xa699, span 0xa69b 0xa69d, alternate 0xa723 0xa72d,
   span 0xa72f 0xa731, alternate 0xa733 0xa76d, span 0xa76f 0xa778, alternate 0xa77a 0xa77c,
   alternate 0xa77f 0xa787, alternate 0xa78c 0xa78e, one 0xa791, span 0xa793 0xa795,
   alternate 0xa797 0xa7a9, one 0xa7af, alternate 0xa7b5 0xa7c3, alternate 0xa7c8 0xa7ca,
   alternate 0xa7cd 0xa7db, span 0xa7f1 0xa7f4, one 0xa7f6, span 0xa7f8 0xa7fa,
   span 0xab30 0xab5a, span 0xab5c 0xab69, span 0xab70 0xabbf, span 0xfb00 0xfb06,
   span 0xfb13 0xfb17, span 0xff41 0xff5a, span 0x10428 0x1044f, span 0x104d8 0x104fb,
   span 0x10597 0x105a1, span 0x105a3 0x105b1, span 0x105b3 0x105b9, span 0x105bb 0x105bc,
   one 0x10780, span 0x10783 0x10785, span 0x10787 0x107b0, span 0x107b2 0x107ba,
   span 0x10cc0 0x10cf2, span 0x10d70 0x10d85, span 0x118c0 0x118df, span 0x16e60 0x16e7f,
   span 0x16ebb 0x16ed3, span 0x1d41a 0x1d433, span 0x1d44e 0x1d454, span 0x1d456 0x1d467,
   span 0x1d482 0x1d49b, span 0x1d4b6 0x1d4b9, one 0x1d4bb, span 0x1d4bd 0x1d4c3,
   span 0x1d4c5 0x1d4cf, span 0x1d4ea 0x1d503, span 0x1d51e 0x1d537, span 0x1d552 0x1d56b,
   span 0x1d586 0x1d59f, span 0x1d5ba 0x1d5d3, span 0x1d5ee 0x1d607, span 0x1d622 0x1d63b,
   span 0x1d656 0x1d66f, span 0x1d68a 0x1d6a5, span 0x1d6c2 0x1d6da, span 0x1d6dc 0x1d6e1,
   span 0x1d6fc 0x1d714, span 0x1d716 0x1d71b, span 0x1d736 0x1d74e, span 0x1d750 0x1d755,
   span 0x1d770 0x1d788, span 0x1d78a 0x1d78f, span 0x1d7aa 0x1d7c2, span 0x1d7c4 0x1d7c9,
   one 0x1d7cb, span 0x1df00 0x1df09, span 0x1df0b 0x1df1e, span 0x1df25 0x1df2a,
   span 0x1e030 0x1e06d, span 0x1e922 0x1e943]

/-- The property Uppercase. -/
def uppercaseRuns : List Run :=
  [span 0x41 0x5a, span 0xc0 0xd6, span 0xd8 0xde, alternate 0x100 0x136, alternate 0x139 0x147,
   alternate 0x14a 0x176, span 0x178 0x179, alternate 0x17b 0x17d, span 0x181 0x182, one 0x184,
   span 0x186 0x187, span 0x189 0x18b, span 0x18e 0x191, span 0x193 0x194, span 0x196 0x198,
   span 0x19c 0x19d, span 0x19f 0x1a0, alternate 0x1a2 0x1a4, span 0x1a6 0x1a7, one 0x1a9,
   one 0x1ac, span 0x1ae 0x1af, span 0x1b1 0x1b3, one 0x1b5, span 0x1b7 0x1b8, one 0x1bc,
   one 0x1c4, one 0x1c7, one 0x1ca, alternate 0x1cd 0x1db, alternate 0x1de 0x1ee, one 0x1f1,
   one 0x1f4, span 0x1f6 0x1f8, alternate 0x1fa 0x232, span 0x23a 0x23b, span 0x23d 0x23e,
   one 0x241, span 0x243 0x246, alternate 0x248 0x24e, alternate 0x370 0x372, one 0x376,
   one 0x37f, one 0x386, span 0x388 0x38a, one 0x38c, span 0x38e 0x38f, span 0x391 0x3a1,
   span 0x3a3 0x3ab, one 0x3cf, span 0x3d2 0x3d4, alternate 0x3d8 0x3ee, one 0x3f4, one 0x3f7,
   span 0x3f9 0x3fa, span 0x3fd 0x42f, alternate 0x460 0x480, alternate 0x48a 0x4be,
   span 0x4c0 0x4c1, alternate 0x4c3 0x4cd, alternate 0x4d0 0x52e, span 0x531 0x556,
   span 0x10a0 0x10c5, one 0x10c7, one 0x10cd, span 0x13a0 0x13f5, one 0x1c89, span 0x1c90 0x1cba,
   span 0x1cbd 0x1cbf, alternate 0x1e00 0x1e94, alternate 0x1e9e 0x1efe, span 0x1f08 0x1f0f,
   span 0x1f18 0x1f1d, span 0x1f28 0x1f2f, span 0x1f38 0x1f3f, span 0x1f48 0x1f4d,
   alternate 0x1f59 0x1f5f, span 0x1f68 0x1f6f, span 0x1fb8 0x1fbb, span 0x1fc8 0x1fcb,
   span 0x1fd8 0x1fdb, span 0x1fe8 0x1fec, span 0x1ff8 0x1ffb, one 0x2102, one 0x2107,
   span 0x210b 0x210d, span 0x2110 0x2112, one 0x2115, span 0x2119 0x211d,
   alternate 0x2124 0x2128, span 0x212a 0x212d, span 0x2130 0x2133, span 0x213e 0x213f,
   one 0x2145, span 0x2160 0x216f, one 0x2183, span 0x24b6 0x24cf, span 0x2c00 0x2c2f, one 0x2c60,
   span 0x2c62 0x2c64, alternate 0x2c67 0x2c6b, span 0x2c6d 0x2c70, one 0x2c72, one 0x2c75,
   span 0x2c7e 0x2c80, alternate 0x2c82 0x2ce2, alternate 0x2ceb 0x2ced, one 0x2cf2,
   alternate 0xa640 0xa66c, alternate 0xa680 0xa69a, alternate 0xa722 0xa72e,
   alternate 0xa732 0xa76e, alternate 0xa779 0xa77b, span 0xa77d 0xa77e, alternate 0xa780 0xa786,
   alternate 0xa78b 0xa78d, alternate 0xa790 0xa792, alternate 0xa796 0xa7a8, span 0xa7aa 0xa7ae,
   span 0xa7b0 0xa7b4, alternate 0xa7b6 0xa7c2, span 0xa7c4 0xa7c7, one 0xa7c9,
   span 0xa7cb 0xa7cc, alternate 0xa7ce 0xa7dc, one 0xa7f5, span 0xff21 0xff3a,
   span 0x10400 0x10427, span 0x104b0 0x104d3, span 0x10570 0x1057a, span 0x1057c 0x1058a,
   span 0x1058c 0x10592, span 0x10594 0x10595, span 0x10c80 0x10cb2, span 0x10d50 0x10d65,
   span 0x118a0 0x118bf, span 0x16e40 0x16e5f, span 0x16ea0 0x16eb8, span 0x1d400 0x1d419,
   span 0x1d434 0x1d44d, span 0x1d468 0x1d481, one 0x1d49c, span 0x1d49e 0x1d49f, one 0x1d4a2,
   span 0x1d4a5 0x1d4a6, span 0x1d4a9 0x1d4ac, span 0x1d4ae 0x1d4b5, span 0x1d4d0 0x1d4e9,
   span 0x1d504 0x1d505, span 0x1d507 0x1d50a, span 0x1d50d 0x1d514, span 0x1d516 0x1d51c,
   span 0x1d538 0x1d539, span 0x1d53b 0x1d53e, span 0x1d540 0x1d544, one 0x1d546,
   span 0x1d54a 0x1d550, span 0x1d56c 0x1d585, span 0x1d5a0 0x1d5b9, span 0x1d5d4 0x1d5ed,
   span 0x1d608 0x1d621, span 0x1d63c 0x1d655, span 0x1d670 0x1d689, span 0x1d6a8 0x1d6c0,
   span 0x1d6e2 0x1d6fa, span 0x1d71c 0x1d734, span 0x1d756 0x1d76e, span 0x1d790 0x1d7a8,
   one 0x1d7ca, span 0x1e900 0x1e921, span 0x1f130 0x1f149, span 0x1f150 0x1f169,
   span 0x1f170 0x1f189]

/-- Alphabetic characters that are neither lowercase nor uppercase. -/
def uncasedRuns : List Run :=
  [one 0x1bb, span 0x1c0 0x1c3, one 0x1c5, one 0x1c8, one 0x1cb, one 0x1f2, span 0x294 0x295,
   span 0x2b9 0x2bf, span 0x2c6 0x2d1, alternate 0x2ec 0x2ee, span 0x363 0x36f, one 0x374,
   one 0x559, span 0x5b0 0x5bd, one 0x5bf, span 0x5c1 0x5c2, span 0x5c4 0x5c5, one 0x5c7,
   span 0x5d0 0x5ea, span 0x5ef 0x5f2, span 0x610 0x61a, span 0x620 0x657, span 0x659 0x65f,
   span 0x66e 0x6d3, span 0x6d5 0x6dc, span 0x6e1 0x6e8, span 0x6ed 0x6ef, span 0x6fa 0x6fc,
   one 0x6ff, span 0x710 0x73f, span 0x74d 0x7b1, span 0x7ca 0x7ea, span 0x7f4 0x7f5, one 0x7fa,
   span 0x800 0x817, span 0x81a 0x82c, span 0x840 0x858, span 0x860 0x86a, span 0x870 0x887,
   span 0x889 0x88f, one 0x897, span 0x8a0 0x8c9, span 0x8d4 0x8df, span 0x8e3 0x8e9,
   span 0x8f0 0x93b, span 0x93d 0x94c, span 0x94e 0x950, span 0x955 0x963, span 0x971 0x983,
   span 0x985 0x98c, span 0x98f 0x990, span 0x993 0x9a8, span 0x9aa 0x9b0, one 0x9b2,
   span 0x9b6 0x9b9, span 0x9bd 0x9c4, span 0x9c7 0x9c8, span 0x9cb 0x9cc, one 0x9ce, one 0x9d7,
   span 0x9dc 0x9dd, span 0x9df 0x9e3, span 0x9f0 0x9f1, one 0x9fc, span 0xa01 0xa03,
   span 0xa05 0xa0a, span 0xa0f 0xa10, span 0xa13 0xa28, span 0xa2a 0xa30, span 0xa32 0xa33,
   span 0xa35 0xa36, span 0xa38 0xa39, span 0xa3e 0xa42, span 0xa47 0xa48, span 0xa4b 0xa4c,
   one 0xa51, span 0xa59 0xa5c, one 0xa5e, span 0xa70 0xa75, span 0xa81 0xa83, span 0xa85 0xa8d,
   span 0xa8f 0xa91, span 0xa93 0xaa8, span 0xaaa 0xab0, span 0xab2 0xab3, span 0xab5 0xab9,
   span 0xabd 0xac5, span 0xac7 0xac9, span 0xacb 0xacc, one 0xad0, span 0xae0 0xae3,
   span 0xaf9 0xafc, span 0xb01 0xb03, span 0xb05 0xb0c, span 0xb0f 0xb10, span 0xb13 0xb28,
   span 0xb2a 0xb30, span 0xb32 0xb33, span 0xb35 0xb39, span 0xb3d 0xb44, span 0xb47 0xb48,
   span 0xb4b 0xb4c, span 0xb56 0xb57, span 0xb5c 0xb5d, span 0xb5f 0xb63, one 0xb71,
   span 0xb82 0xb83, span 0xb85 0xb8a, span 0xb8e 0xb90, span 0xb92 0xb95, span 0xb99 0xb9a,
   one 0xb9c, span 0xb9e 0xb9f, span 0xba3 0xba4, span 0xba8 0xbaa, span 0xbae 0xbb9,
   span 0xbbe 0xbc2, span 0xbc6 0xbc8, span 0xbca 0xbcc, one 0xbd0, one 0xbd7, span 0xc00 0xc0c,
   span 0xc0e 0xc10, span 0xc12 0xc28, span 0xc2a 0xc39, span 0xc3d 0xc44, span 0xc46 0xc48,
   span 0xc4a 0xc4c, span 0xc55 0xc56, span 0xc58 0xc5a, span 0xc5c 0xc5d, span 0xc60 0xc63,
   span 0xc80 0xc83, span 0xc85 0xc8c, span 0xc8e 0xc90, span 0xc92 0xca8, span 0xcaa 0xcb3,
   span 0xcb5 0xcb9, span 0xcbd 0xcc4, span 0xcc6 0xcc8, span 0xcca 0xccc, span 0xcd5 0xcd6,
   span 0xcdc 0xcde, span 0xce0 0xce3, span 0xcf1 0xcf3, span 0xd00 0xd0c, span 0xd0e 0xd10,
   span 0xd12 0xd3a, span 0xd3d 0xd44, span 0xd46 0xd48, span 0xd4a 0xd4c, one 0xd4e,
   span 0xd54 0xd57, span 0xd5f 0xd63, span 0xd7a 0xd7f, span 0xd81 0xd83, span 0xd85 0xd96,
   span 0xd9a 0xdb1, span 0xdb3 0xdbb, one 0xdbd, span 0xdc0 0xdc6, span 0xdcf 0xdd4, one 0xdd6,
   span 0xdd8 0xddf, span 0xdf2 0xdf3, span 0xe01 0xe3a, span 0xe40 0xe46, one 0xe4d,
   span 0xe81 0xe82, one 0xe84, span 0xe86 0xe8a, span 0xe8c 0xea3, one 0xea5, span 0xea7 0xeb9,
   span 0xebb 0xebd, span 0xec0 0xec4, one 0xec6, one 0xecd, span 0xedc 0xedf, one 0xf00,
   span 0xf40 0xf47, span 0xf49 0xf6c, span 0xf71 0xf83, span 0xf88 0xf97, span 0xf99 0xfbc,
   span 0x1000 0x1036, one 0x1038, span 0x103b 0x103f, span 0x1050 0x108f, span 0x109a 0x109d,
   span 0x1100 0x1248, span 0x124a 0x124d, span 0x1250 0x1256, one 0x1258, span 0x125a 0x125d,
   span 0x1260 0x1288, span 0x128a 0x128d, span 0x1290 0x12b0, span 0x12b2 0x12b5,
   span 0x12b8 0x12be, one 0x12c0, span 0x12c2 0x12c5, span 0x12c8 0x12d6, span 0x12d8 0x1310,
   span 0x1312 0x1315, span 0x1318 0x135a, span 0x1380 0x138f, span 0x1401 0x166c,
   span 0x166f 0x167f, span 0x1681 0x169a, span 0x16a0 0x16ea, span 0x16ee 0x16f8,
   span 0x1700 0x1713, span 0x171f 0x1733, span 0x1740 0x1753, span 0x1760 0x176c,
   span 0x176e 0x1770, span 0x1772 0x1773, span 0x1780 0x17b3, span 0x17b6 0x17c8, one 0x17d7,
   one 0x17dc, span 0x1820 0x1878, span 0x1880 0x18aa, span 0x18b0 0x18f5, span 0x1900 0x191e,
   span 0x1920 0x192b, span 0x1930 0x1938, span 0x1950 0x196d, span 0x1970 0x1974,
   span 0x1980 0x19ab, span 0x19b0 0x19c9, span 0x1a00 0x1a1b, span 0x1a20 0x1a5e,
   span 0x1a61 0x1a74, one 0x1aa7, span 0x1abf 0x1ac0, span 0x1acc 0x1ace, span 0x1b00 0x1b33,
   span 0x1b35 0x1b43, span 0x1b45 0x1b4c, span 0x1b80 0x1ba9, span 0x1bac 0x1baf,
   span 0x1bba 0x1be5, span 0x1be7 0x1bf1, span 0x1c00 0x1c36, span 0x1c4d 0x1c4f,
   span 0x1c5a 0x1c7d, span 0x1ce9 0x1cec, span 0x1cee 0x1cf3, span 0x1cf5 0x1cf6, one 0x1cfa,
   span 0x1dd3 0x1df4, span 0x1f88 0x1f8f, span 0x1f98 0x1f9f, span 0x1fa8 0x1faf, one 0x1fbc,
   one 0x1fcc, one 0x1ffc, span 0x2135 0x2138, span 0x2180 0x2182, span 0x2185 0x2188,
   span 0x2d30 0x2d67, one 0x2d6f, span 0x2d80 0x2d96, span 0x2da0 0x2da6, span 0x2da8 0x2dae,
   span 0x2db0 0x2db6, span 0x2db8 0x2dbe, span 0x2dc0 0x2dc6, span 0x2dc8 0x2dce,
   span 0x2dd0 0x2dd6, span 0x2dd8 0x2dde, span 0x2de0 0x2dff, one 0x2e2f, span 0x3005 0x3007,
   span 0x3021 0x3029, span 0x3031 0x3035, span 0x3038 0x303c, span 0x3041 0x3096,
   span 0x309d 0x309f, span 0x30a1 0x30fa, span 0x30fc 0x30ff, span 0x3105 0x312f,
   span 0x3131 0x318e, span 0x31a0 0x31bf, span 0x31f0 0x31ff, span 0x3400 0x4dbf,
   span 0x4e00 0xa48c, span 0xa4d0 0xa4fd, span 0xa500 0xa60c, span 0xa610 0xa61f,
   span 0xa62a 0xa62b, one 0xa66e, span 0xa674 0xa67b, one 0xa67f, span 0xa69e 0xa6ef,
   span 0xa717 0xa71f, one 0xa788, one 0xa78f, one 0xa7f7, span 0xa7fb 0xa805, span 0xa807 0xa827,
   span 0xa840 0xa873, span 0xa880 0xa8c3, one 0xa8c5, span 0xa8f2 0xa8f7, one 0xa8fb,
   span 0xa8fd 0xa8ff, span 0xa90a 0xa92a, span 0xa930 0xa952, span 0xa960 0xa97c,
   span 0xa980 0xa9b2, span 0xa9b4 0xa9bf, one 0xa9cf, span 0xa9e0 0xa9ef, span 0xa9fa 0xa9fe,
   span 0xaa00 0xaa36, span 0xaa40 0xaa4d, span 0xaa60 0xaa76, span 0xaa7a 0xaabe,
   alternate 0xaac0 0xaac2, span 0xaadb 0xaadd, span 0xaae0 0xaaef, span 0xaaf2 0xaaf5,
   span 0xab01 0xab06, span 0xab09 0xab0e, span 0xab11 0xab16, span 0xab20 0xab26,
   span 0xab28 0xab2e, span 0xabc0 0xabea, span 0xac00 0xd7a3, span 0xd7b0 0xd7c6,
   span 0xd7cb 0xd7fb, span 0xf900 0xfa6d, span 0xfa70 0xfad9, span 0xfb1d 0xfb28,
   span 0xfb2a 0xfb36, span 0xfb38 0xfb3c, one 0xfb3e, span 0xfb40 0xfb41, span 0xfb43 0xfb44,
   span 0xfb46 0xfbb1, span 0xfbd3 0xfd3d, span 0xfd50 0xfd8f, span 0xfd92 0xfdc7,
   span 0xfdf0 0xfdfb, span 0xfe70 0xfe74, span 0xfe76 0xfefc, span 0xff66 0xffbe,
   span 0xffc2 0xffc7, span 0xffca 0xffcf, span 0xffd2 0xffd7, span 0xffda 0xffdc,
   span 0x10000 0x1000b, span 0x1000d 0x10026, span 0x10028 0x1003a, span 0x1003c 0x1003d,
   span 0x1003f 0x1004d, span 0x10050 0x1005d, span 0x10080 0x100fa, span 0x10140 0x10174,
   span 0x10280 0x1029c, span 0x102a0 0x102d0, span 0x10300 0x1031f, span 0x1032d 0x1034a,
   span 0x10350 0x1037a, span 0x10380 0x1039d, span 0x103a0 0x103c3, span 0x103c8 0x103cf,
   span 0x103d1 0x103d5, span 0x10450 0x1049d, span 0x10500 0x10527, span 0x10530 0x10563,
   span 0x105c0 0x105f3, span 0x10600 0x10736, span 0x10740 0x10755, span 0x10760 0x10767,
   span 0x10781 0x10782, span 0x10800 0x10805, one 0x10808, span 0x1080a 0x10835,
   span 0x10837 0x10838, one 0x1083c, span 0x1083f 0x10855, span 0x10860 0x10876,
   span 0x10880 0x1089e, span 0x108e0 0x108f2, span 0x108f4 0x108f5, span 0x10900 0x10915,
   span 0x10920 0x10939, span 0x10940 0x10959, span 0x10980 0x109b7, span 0x109be 0x109bf,
   span 0x10a00 0x10a03, span 0x10a05 0x10a06, span 0x10a0c 0x10a13, span 0x10a15 0x10a17,
   span 0x10a19 0x10a35, span 0x10a60 0x10a7c, span 0x10a80 0x10a9c, span 0x10ac0 0x10ac7,
   span 0x10ac9 0x10ae4, span 0x10b00 0x10b35, span 0x10b40 0x10b55, span 0x10b60 0x10b72,
   span 0x10b80 0x10b91, span 0x10c00 0x10c48, span 0x10d00 0x10d27, span 0x10d4a 0x10d4f,
   one 0x10d69, one 0x10d6f, span 0x10e80 0x10ea9, span 0x10eab 0x10eac, span 0x10eb0 0x10eb1,
   span 0x10ec2 0x10ec7, span 0x10efa 0x10efc, span 0x10f00 0x10f1c, one 0x10f27,
   span 0x10f30 0x10f45, span 0x10f70 0x10f81, span 0x10fb0 0x10fc4, span 0x10fe0 0x10ff6,
   span 0x11000 0x11045, span 0x11071 0x11075, span 0x11080 0x110b8, one 0x110c2,
   span 0x110d0 0x110e8, span 0x11100 0x11132, span 0x11144 0x11147, span 0x11150 0x11172,
   one 0x11176, span 0x11180 0x111bf, span 0x111c1 0x111c4, span 0x111ce 0x111cf,
   alternate 0x111da 0x111dc, span 0x11200 0x11211, span 0x11213 0x11234, one 0x11237,
   span 0x1123e 0x11241, span 0x11280 0x11286, one 0x11288, span 0x1128a 0x1128d,
   span 0x1128f 0x1129d, span 0x1129f 0x112a8, span 0x112b0 0x112e8, span 0x11300 0x11303,
   span 0x11305 0x1130c, span 0x1130f 0x11310, span 0x11313 0x11328, span 0x1132a 0x11330,
   span 0x11332 0x11333, span 0x11335 0x11339, span 0x1133d 0x11344, span 0x11347 0x11348,
   span 0x1134b 0x1134c, one 0x11350, one 0x11357, span 0x1135d 0x11363, span 0x11380 0x11389,
   one 0x1138b, one 0x1138e, span 0x11390 0x113b5, span 0x113b7 0x113c0, one 0x113c2, one 0x113c5,
   span 0x113c7 0x113ca, span 0x113cc 0x113cd, alternate 0x113d1 0x113d3, span 0x11400 0x11441,
   span 0x11443 0x11445, span 0x11447 0x1144a, span 0x1145f 0x11461, span 0x11480 0x114c1,
   span 0x114c4 0x114c5, one 0x114c7, span 0x11580 0x115b5, span 0x115b8 0x115be,
   span 0x115d8 0x115dd, span 0x11600 0x1163e, one 0x11640, one 0x11644, span 0x11680 0x116b5,
   one 0x116b8, span 0x11700 0x1171a, span 0x1171d 0x1172a, span 0x11740 0x11746,
   span 0x11800 0x11838, span 0x118ff 0x11906, one 0x11909, span 0x1190c 0x11913,
   span 0x11915 0x11916, span 0x11918 0x11935, span 0x11937 0x11938, span 0x1193b 0x1193c,
   span 0x1193f 0x11942, span 0x119a0 0x119a7, span 0x119aa 0x119d7, span 0x119da 0x119df,
   one 0x119e1, span 0x119e3 0x119e4, span 0x11a00 0x11a32, span 0x11a35 0x11a3e,
   span 0x11a50 0x11a97, one 0x11a9d, span 0x11ab0 0x11af8, span 0x11b60 0x11b67,
   span 0x11bc0 0x11be0, span 0x11c00 0x11c08, span 0x11c0a 0x11c36, span 0x11c38 0x11c3e,
   one 0x11c40, span 0x11c72 0x11c8f, span 0x11c92 0x11ca7, span 0x11ca9 0x11cb6,
   span 0x11d00 0x11d06, span 0x11d08 0x11d09, span 0x11d0b 0x11d36, one 0x11d3a,
   span 0x11d3c 0x11d3d, span 0x11d3f 0x11d41, one 0x11d43, span 0x11d46 0x11d47,
   span 0x11d60 0x11d65, span 0x11d67 0x11d68, span 0x11d6a 0x11d8e, span 0x11d90 0x11d91,
   span 0x11d93 0x11d96, one 0x11d98, span 0x11db0 0x11ddb, span 0x11ee0 0x11ef6,
   span 0x11f00 0x11f10, span 0x11f12 0x11f3a, span 0x11f3e 0x11f40, one 0x11fb0,
   span 0x12000 0x12399, span 0x12400 0x1246e, span 0x12480 0x12543, span 0x12f90 0x12ff0,
   span 0x13000 0x1342f, span 0x13441 0x13446, span 0x13460 0x143fa, span 0x14400 0x14646,
   span 0x16100 0x1612e, span 0x16800 0x16a38, span 0x16a40 0x16a5e, span 0x16a70 0x16abe,
   span 0x16ad0 0x16aed, span 0x16b00 0x16b2f, span 0x16b40 0x16b43, span 0x16b63 0x16b77,
   span 0x16b7d 0x16b8f, span 0x16d40 0x16d6c, span 0x16f00 0x16f4a, span 0x16f4f 0x16f87,
   span 0x16f8f 0x16f9f, span 0x16fe0 0x16fe1, one 0x16fe3, span 0x16ff0 0x16ff6,
   span 0x17000 0x18cd5, span 0x18cff 0x18d1e, span 0x18d80 0x18df2, span 0x1aff0 0x1aff3,
   span 0x1aff5 0x1affb, span 0x1affd 0x1affe, span 0x1b000 0x1b122, one 0x1b132,
   span 0x1b150 0x1b152, one 0x1b155, span 0x1b164 0x1b167, span 0x1b170 0x1b2fb,
   span 0x1bc00 0x1bc6a, span 0x1bc70 0x1bc7c, span 0x1bc80 0x1bc88, span 0x1bc90 0x1bc99,
   one 0x1bc9e, one 0x1df0a, span 0x1e000 0x1e006, span 0x1e008 0x1e018, span 0x1e01b 0x1e021,
   span 0x1e023 0x1e024, span 0x1e026 0x1e02a, one 0x1e08f, span 0x1e100 0x1e12c,
   span 0x1e137 0x1e13d, one 0x1e14e, span 0x1e290 0x1e2ad, span 0x1e2c0 0x1e2eb,
   span 0x1e4d0 0x1e4eb, span 0x1e5d0 0x1e5ed, one 0x1e5f0, span 0x1e6c0 0x1e6de,
   span 0x1e6e0 0x1e6f5, span 0x1e6fe 0x1e6ff, span 0x1e7e0 0x1e7e6, span 0x1e7e8 0x1e7eb,
   span 0x1e7ed 0x1e7ee, span 0x1e7f0 0x1e7fe, span 0x1e800 0x1e8c4, one 0x1e947, one 0x1e94b,
   span 0x1ee00 0x1ee03, span 0x1ee05 0x1ee1f, span 0x1ee21 0x1ee22, one 0x1ee24, one 0x1ee27,
   span 0x1ee29 0x1ee32, span 0x1ee34 0x1ee37, alternate 0x1ee39 0x1ee3b, one 0x1ee42,
   alternate 0x1ee47 0x1ee4b, span 0x1ee4d 0x1ee4f, span 0x1ee51 0x1ee52, one 0x1ee54,
   alternate 0x1ee57 0x1ee5f, span 0x1ee61 0x1ee62, one 0x1ee64, span 0x1ee67 0x1ee6a,
   span 0x1ee6c 0x1ee72, span 0x1ee74 0x1ee77, span 0x1ee79 0x1ee7c, one 0x1ee7e,
   span 0x1ee80 0x1ee89, span 0x1ee8b 0x1ee9b, span 0x1eea1 0x1eea3, span 0x1eea5 0x1eea9,
   span 0x1eeab 0x1eebb, span 0x20000 0x2a6df, span 0x2a700 0x2b81d, span 0x2b820 0x2cead,
   span 0x2ceb0 0x2ebe0, span 0x2ebf0 0x2ee5d, span 0x2f800 0x2fa1d, span 0x30000 0x3134a,
   span 0x31350 0x33479]

/-- The general categories Nd, Nl and No. -/
def numericRuns : List Run :=
  [span 0x30 0x39, span 0xb2 0xb3, one 0xb9, span 0xbc 0xbe, span 0x660 0x669, span 0x6f0 0x6f9,
   span 0x7c0 0x7c9, span 0x966 0x96f, span 0x9e6 0x9ef, span 0x9f4 0x9f9, span 0xa66 0xa6f,
   span 0xae6 0xaef, span 0xb66 0xb6f, span 0xb72 0xb77, span 0xbe6 0xbf2, span 0xc66 0xc6f,
   span 0xc78 0xc7e, span 0xce6 0xcef, span 0xd58 0xd5e, span 0xd66 0xd78, span 0xde6 0xdef,
   span 0xe50 0xe59, span 0xed0 0xed9, span 0xf20 0xf33, span 0x1040 0x1049, span 0x1090 0x1099,
   span 0x1369 0x137c, span 0x16ee 0x16f0, span 0x17e0 0x17e9, span 0x17f0 0x17f9,
   span 0x1810 0x1819, span 0x1946 0x194f, span 0x19d0 0x19da, span 0x1a80 0x1a89,
   span 0x1a90 0x1a99, span 0x1b50 0x1b59, span 0x1bb0 0x1bb9, span 0x1c40 0x1c49,
   span 0x1c50 0x1c59, one 0x2070, span 0x2074 0x2079, span 0x2080 0x2089, span 0x2150 0x2182,
   span 0x2185 0x2189, span 0x2460 0x249b, span 0x24ea 0x24ff, span 0x2776 0x2793, one 0x2cfd,
   one 0x3007, span 0x3021 0x3029, span 0x3038 0x303a, span 0x3192 0x3195, span 0x3220 0x3229,
   span 0x3248 0x324f, span 0x3251 0x325f, span 0x3280 0x3289, span 0x32b1 0x32bf,
   span 0xa620 0xa629, span 0xa6e6 0xa6ef, span 0xa830 0xa835, span 0xa8d0 0xa8d9,
   span 0xa900 0xa909, span 0xa9d0 0xa9d9, span 0xa9f0 0xa9f9, span 0xaa50 0xaa59,
   span 0xabf0 0xabf9, span 0xff10 0xff19, span 0x10107 0x10133, span 0x10140 0x10178,
   span 0x1018a 0x1018b, span 0x102e1 0x102fb, span 0x10320 0x10323, one 0x10341, one 0x1034a,
   span 0x103d1 0x103d5, span 0x104a0 0x104a9, span 0x10858 0x1085f, span 0x10879 0x1087f,
   span 0x108a7 0x108af, span 0x108fb 0x108ff, span 0x10916 0x1091b, span 0x109bc 0x109bd,
   span 0x109c0 0x109cf, span 0x109d2 0x109ff, span 0x10a40 0x10a48, span 0x10a7d 0x10a7e,
   span 0x10a9d 0x10a9f, span 0x10aeb 0x10aef, span 0x10b58 0x10b5f, span 0x10b78 0x10b7f,
   span 0x10ba9 0x10baf, span 0x10cfa 0x10cff, span 0x10d30 0x10d39, span 0x10d40 0x10d49,
   span 0x10e60 0x10e7e, span 0x10f1d 0x10f26, span 0x10f51 0x10f54, span 0x10fc5 0x10fcb,
   span 0x11052 0x1106f, span 0x110f0 0x110f9, span 0x11136 0x1113f, span 0x111d0 0x111d9,
   span 0x111e1 0x111f4, span 0x112f0 0x112f9, span 0x11450 0x11459, span 0x114d0 0x114d9,
   span 0x11650 0x11659, span 0x116c0 0x116c9, span 0x116d0 0x116e3, span 0x11730 0x1173b,
   span 0x118e0 0x118f2, span 0x11950 0x11959, span 0x11bf0 0x11bf9, span 0x11c50 0x11c6c,
   span 0x11d50 0x11d59, span 0x11da0 0x11da9, span 0x11de0 0x11de9, span 0x11f50 0x11f59,
   span 0x11fc0 0x11fd4, span 0x12400 0x1246e, span 0x16130 0x16139, span 0x16a60 0x16a69,
   span 0x16ac0 0x16ac9, span 0x16b50 0x16b59, span 0x16b5b 0x16b61, span 0x16d70 0x16d79,
   span 0x16e80 0x16e96, span 0x16ff4 0x16ff6, span 0x1ccf0 0x1ccf9, span 0x1d2c0 0x1d2d3,
   span 0x1d2e0 0x1d2f3, span 0x1d360 0x1d378, span 0x1d7ce 0x1d7ff, span 0x1e140 0x1e149,
   span 0x1e2f0 0x1e2f9, span 0x1e4f0 0x1e4f9, span 0x1e5f1 0x1e5fa, span 0x1e8c7 0x1e8cf,
   span 0x1e950 0x1e959, span 0x1ec71 0x1ecab, span 0x1ecad 0x1ecaf, span 0x1ecb1 0x1ecb4,
   span 0x1ed01 0x1ed2d, span 0x1ed2f 0x1ed3d, span 0x1f100 0x1f10c, span 0x1fbf0 0x1fbf9]

def isLowercase (c : Char) : Bool := covers lowercaseRuns c.toNat

def isUppercase (c : Char) : Bool := covers uppercaseRuns c.toNat

def isAlphabetic (c : Char) : Bool :=
  isLowercase c || isUppercase c || covers uncasedRuns c.toNat

def isNumeric (c : Char) : Bool := covers numericRuns c.toNat

/-- The characters of which words consist. -/
def isWordChar (c : Char) : Bool := isAlphabetic c || isNumeric c || c == '_'

/-- The words of a line; everything else separates them. -/
def words (t : Text) : List Text := (t.splitOnP (!isWordChar ·)).filter (!·.isEmpty)

end InterfaceGen.Text
