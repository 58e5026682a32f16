import Typings.Unicode.Script

/-!
# Script extensions

Most characters belong to one script.  Those in the table are used with several, or with others than
their own.

So the characters used with a script are its own without those of the table, and those of the table
that list it.  The table names scripts by their codes.
-/

namespace Typings.Unicode

/-- Characters with the codes of the scripts that use them. -/
def scriptUseRows : List (List String × List String) :=
  [(["B7"],
    ["avst", "cari", "copt", "dupl", "elba", "geor", "glag", "gong", "goth", "grek", "hani",
     "latn", "lydi", "mahj", "perm", "shaw"]),
   (["2BC"], ["beng", "cyrl", "deva", "latn", "lisu", "thai", "toto"]),
   (["2C7 2C9-2CB 2D9"], ["bopo", "latn"]),
   (["2CD"], ["latn", "lisu"]),
   (["2D7"], ["latn", "thai"]),
   (["300"], ["cher", "copt", "cyrl", "grek", "latn", "perm", "sunu", "tale"]),
   (["301"], ["cher", "cyrl", "grek", "latn", "osge", "sunu", "tale", "todr"]),
   (["302"], ["cher", "cyrl", "latn", "tfng"]),
   (["303"], ["glag", "latn", "sunu", "syrc", "thai"]),
   (["304"],
    ["aghb", "cher", "copt", "cyrl", "goth", "grek", "latn", "osge", "syrc", "tfng", "todr"]),
   (["305"], ["copt", "elba", "glag", "goth", "kana", "latn"]),
   (["306"], ["cyrl", "grek", "latn", "perm", "tfng"]),
   (["307"], ["copt", "dupl", "hebr", "latn", "perm", "syrc", "tale", "tfng", "todr"]),
   (["308"],
    ["armn", "cyrl", "dupl", "goth", "grek", "hebr", "latn", "perm", "syrc", "tale", "tfng"]),
   (["309"], ["latn", "tfng"]),
   (["30A"], ["dupl", "latn", "syrc"]),
   (["30B"], ["cher", "cyrl", "latn", "osge"]),
   (["30C"], ["cher", "latn", "tale"]),
   (["30D 310"], ["latn", "sunu"]),
   (["30E"], ["ethi", "latn"]),
   (["311"], ["cyrl", "latn", "todr"]),
   (["313"], ["grek", "latn", "perm", "todr"]),
   (["323"], ["cher", "dupl", "kana", "latn", "syrc", "tfng"]),
   (["324"], ["cher", "dupl", "latn", "syrc"]),
   (["325 32E"], ["latn", "syrc"]),
   (["32D"], ["latn", "sunu", "syrc"]),
   (["330"], ["cher", "latn", "syrc"]),
   (["331"], ["aghb", "cher", "goth", "latn", "sunu", "syrc", "thai"]),
   (["342 345 1DC0-1DC1"], ["grek"]),
   (["358"], ["latn", "osge"]),
   (["35E"], ["aghb", "latn", "todr"]),
   (["363-36F"], ["latn"]),
   (["374-375"], ["copt", "grek"]),
   (["483"], ["cyrl", "perm"]),
   (["484 487 2E43 A66F"], ["cyrl", "glag"]),
   (["485-486"], ["cyrl", "latn"]),
   (["589"], ["armn", "geor", "glag"]),
   (["60C 61B"], ["arab", "gara", "nkoo", "rohg", "syrc", "thaa", "yezi"]),
   (["61C"], ["arab", "syrc", "thaa"]),
   (["61F"], ["adlm", "arab", "gara", "nkoo", "rohg", "syrc", "thaa", "yezi"]),
   (["640"], ["adlm", "arab", "mand", "mani", "ougr", "phlp", "rohg", "sogd", "syrc"]),
   (["64B-655 670"], ["arab", "syrc"]),
   (["660-669"], ["arab", "thaa", "yezi"]),
   (["6D4"], ["arab", "rohg"]),
   (["951"],
    ["beng", "deva", "gran", "gujr", "guru", "knda", "latn", "mlym", "nand", "newa", "orya",
     "shrd", "taml", "telu", "tirh"]),
   (["952"],
    ["beng", "deva", "gran", "gujr", "guru", "knda", "latn", "mlym", "newa", "orya", "taml",
     "telu", "tirh"]),
   (["964"],
    ["beng", "deva", "dogr", "gong", "gonm", "gran", "gujr", "guru", "knda", "mahj", "mlym",
     "nand", "onao", "orya", "sind", "sinh", "sylo", "takr", "taml", "telu", "tirh"]),
   (["965"],
    ["beng", "deva", "dogr", "gong", "gonm", "gran", "gujr", "gukh", "guru", "knda", "limb",
     "mahj", "mlym", "nand", "onao", "orya", "sind", "sinh", "sylo", "takr", "taml", "telu",
     "tirh"]),
   (["966-96F"], ["deva", "dogr", "kthi", "mahj"]),
   (["9E6-9EF"], ["beng", "cakm", "sylo"]),
   (["A66-A6F"], ["guru", "mult"]),
   (["AE6-AEF"], ["gujr", "khoj"]),
   (["BE6-BF3 11301 11303 1133B-1133C 11FD0-11FD1 11FD3"], ["gran", "taml"]),
   (["CE6-CEF"], ["knda", "nand", "tutg"]),
   (["1040-1049"], ["cakm", "mymr", "tale"]),
   (["10FB"], ["geor", "glag", "latn"]),
   (["16EB-16ED"], ["runr"]),
   (["1735-1736"], ["buhd", "hano", "tagb", "tglg"]),
   (["1802-1803 1805"], ["mong", "phag"]),
   (["1CD0 1CD2"], ["beng", "deva", "gran", "knda"]),
   (["1CD1 1CD4 1CDB 1CDE-1CDF 1CE3-1CE8 1CEC 1CEE-1CF1"], ["deva"]),
   (["1CD3"], ["deva", "gran", "knda"]),
   (["1CD5"], ["beng", "deva", "newa", "telu", "tirh"]),
   (["1CD6"], ["beng", "deva", "telu"]),
   (["1CD7"], ["deva", "newa", "shrd"]),
   (["1CD8"], ["beng", "deva", "newa", "telu"]),
   (["1CD9 1CDC-1CDD 1CE0"], ["deva", "shrd"]),
   (["1CDA"], ["deva", "knda", "mlym", "orya", "taml", "telu"]),
   (["1CE1 1CF5-1CF6"], ["beng", "deva"]),
   (["1CE2"], ["deva", "newa", "tirh"]),
   (["1CE9"], ["deva", "nand", "newa"]),
   (["1CEA"], ["beng", "deva", "shrd"]),
   (["1CEB"], ["deva", "newa"]),
   (["1CED"], ["beng", "deva", "newa", "shrd"]),
   (["1CF2"],
    ["beng", "deva", "gran", "knda", "mlym", "nand", "orya", "sinh", "telu", "tirh", "tutg"]),
   (["1CF3 1CF8-1CF9"], ["deva", "gran"]),
   (["1CF4"], ["deva", "gran", "knda", "tutg"]),
   (["1CF7"], ["beng"]),
   (["1CFA"], ["nand"]),
   (["1DF8"], ["cyrl", "latn", "syrc"]),
   (["1DFA"], ["syrc"]),
   (["202F"], ["latn", "mong", "phag"]),
   (["204F"], ["adlm", "arab"]),
   (["205A"], ["cari", "geor", "glag", "hung", "lyci", "orkh"]),
   (["205D"], ["cari", "grek", "hung", "mero"]),
   (["20F0"], ["deva", "gran", "latn"]),
   (["2E17"], ["copt", "latn"]),
   (["2E30"], ["avst", "orkh"]),
   (["2E31"], ["avst", "cari", "geor", "hung", "kthi", "lydi", "samr"]),
   (["2E3C 1BCA0-1BCA3"], ["dupl"]),
   (["2E41"], ["adlm", "arab", "hung"]),
   (["2FF0-2FFF 31EF"], ["hani", "tang"]),
   (["3001"], ["bopo", "hang", "hani", "hira", "kana", "mong", "yiii"]),
   (["3002"], ["bopo", "hang", "hani", "hira", "kana", "mong", "phag", "yiii"]),
   (["3003 3013 301C-301F 3030 3037 FE45-FE46"], ["bopo", "hang", "hani", "hira", "kana"]),
   (["3006 303E-303F 3190-319F 31C0-31E5 3220-3247 3280-32B0 32C0-32CB 32FF 3358-3370 337B-337F",
    "33E0-33FE 1D360-1D371 1F250-1F251"],
    ["hani"]),
   (["3008-3009"], ["bopo", "hang", "hani", "hira", "kana", "mong", "tibt", "yiii"]),
   (["300A-300B"], ["bopo", "hang", "hani", "hira", "kana", "lisu", "mong", "tibt", "yiii"]),
   (["300C-3011 3014-301B 30FB FF61-FF65"], ["bopo", "hang", "hani", "hira", "kana", "yiii"]),
   (["302A-302D"], ["bopo", "hani"]),
   (["3031-3035 3099-309C 30A0 30FC FF70 FF9E-FF9F"], ["hira", "kana"]),
   (["303C-303D"], ["hani", "hira", "kana"]),
   (["A700-A707"], ["hani", "latn"]),
   (["A830-A832"],
    ["deva", "dogr", "gujr", "guru", "khoj", "knda", "kthi", "mahj", "mlym", "modi", "nand",
     "shrd", "sind", "takr", "tirh", "tutg"]),
   (["A833-A835"],
    ["deva", "dogr", "gujr", "guru", "khoj", "knda", "kthi", "mahj", "modi", "nand", "shrd",
     "sind", "takr", "tirh", "tutg"]),
   (["A836-A837 A839"],
    ["deva", "dogr", "gujr", "guru", "khoj", "kthi", "mahj", "modi", "sind", "takr", "tirh"]),
   (["A838"],
    ["deva", "dogr", "gujr", "guru", "khoj", "kthi", "mahj", "modi", "shrd", "sind", "takr",
     "tirh"]),
   (["A8F1"], ["beng", "deva", "tutg"]),
   (["A8F3"], ["deva", "taml"]),
   (["A92E"], ["kali", "latn", "mymr"]),
   (["A9CF"], ["bugi", "java"]),
   (["FD3E-FD3F"], ["arab", "nkoo"]),
   (["FDF2 FDFD"], ["arab", "thaa"]),
   (["10100-10101"], ["cpmn", "cprt", "linb"]),
   (["10102 10137-1013F"], ["cprt", "linb"]),
   (["10107-10133"], ["cprt", "lina", "linb"]),
   (["102E0-102FB"], ["arab", "copt"]),
   (["10AF2"], ["mani", "ougr"])]

/-- The characters of the table. -/
def sharedSet : CodeSet := CodeSet.unions (scriptUseRows.map fun (rows, _) => CodeSet.ofRows rows)

/-- The characters used with the script of a name: its own but those of the table, and those of the
    table that list it. -/
def scriptExtensionSet? (name : String) : Option CodeSet := do
  let code ← scriptCode? name
  let own ← scriptSet? name
  let listed := (scriptUseRows.filter fun (_, codes) => codes.contains code).map fun (rows, _) =>
    CodeSet.ofRows rows
  pure ((own.diff sharedSet).union (CodeSet.unions listed))

end Typings.Unicode
