import Footcite.Table

/-!
# Rules of abbreviation

The phrases and words that are abbreviated in the name of a journal that no table lists, and the words that are left
out.
-/

namespace Footcite

/-- Phrases with their abbreviations, in the order in which they are put in. -/
def phraseRules : Table Text := Table.ofStrings [
  ("Law Review", "L. Rev."), ("Law Journal", "L.J."), ("Law Quarterly", "L.Q."), ("Law & Policy", "L. & Pol'y"),
  ("Law and Policy", "L. & Pol'y"), ("Public Policy", "Pub. Pol'y"), ("Public Law", "Pub. L."),
  ("Civil Rights", "C.R."), ("Civil Liberties", "C.L."), ("Human Rights", "Hum. Rts."),
  ("Intellectual Property", "Intell. Prop."), ("New York", "N.Y."), ("New Jersey", "N.J."), ("New Mexico", "N.M."),
  ("New Hampshire", "N.H."), ("New England", "New Eng."), ("North Carolina", "N.C."), ("North Dakota", "N.D."),
  ("South Carolina", "S.C."), ("South Dakota", "S.D."), ("West Virginia", "W. Va."), ("Rhode Island", "R.I."),
  ("District of Columbia", "D.C."), ("Los Angeles", "L.A."), ("San Francisco", "S.F."), ("Saint Louis", "St. Louis"),
  ("United States", "U.S."), ("William & Mary", "Wm. & Mary"), ("William and Mary", "Wm. & Mary"),
  ("Case Western Reserve", "Case W. Rsrv."), ("George Washington", "Geo. Wash."), ("George Mason", "Geo. Mason"),
  ("Penn State", "Penn St."), ("Ohio State", "Ohio St."), ("Arizona State", "Ariz. St."),
  ("Florida State", "Fla. St."), ("Georgia State", "Ga. St."), ("Michigan State", "Mich. St."),
  ("Hastings College of the Law", "Hastings"), ("Supreme Court", "Sup. Ct.")]

/-- The abbreviations of institutions. -/
def institutionRules : Table Text := Table.ofStrings [
  ("Akron", "Akron"), ("Alabama", "Ala."), ("American", "Am."), ("Arizona", "Ariz."), ("Arkansas", "Ark."),
  ("Baylor", "Baylor"), ("Berkeley", "Berkeley"), ("Boston", "B."), ("Brigham", "Brigham"), ("Brooklyn", "Brook."),
  ("Buffalo", "Buff."), ("Cardozo", "Cardozo"), ("Catholic", "Cath."), ("Chapman", "Chap."), ("Chicago", "Chi."),
  ("Chicago-Kent", "Chi.-Kent"), ("Cincinnati", "Cin."), ("Columbia", "Colum."), ("Cornell", "Cornell"),
  ("Creighton", "Creighton"), ("Denver", "Denv."), ("DePaul", "DePaul"), ("Drake", "Drake"), ("Duke", "Duke"),
  ("Duquesne", "Duq."), ("Emory", "Emory"), ("Fordham", "Fordham"), ("Georgetown", "Geo."), ("Gonzaga", "Gonz."),
  ("Harvard", "Harv."), ("Hastings", "Hastings"), ("Hofstra", "Hofstra"), ("Houston", "Hous."), ("Howard", "How."),
  ("Loyola", "Loy."), ("Marquette", "Marq."), ("Mercer", "Mercer"), ("Northeastern", "Ne."), ("Northwestern", "Nw."),
  ("Pace", "Pace"), ("Pepperdine", "Pepp."), ("Princeton", "Princeton"), ("Rutgers", "Rutgers"),
  ("Stanford", "Stan."), ("Stetson", "Stetson"), ("Suffolk", "Suffolk"), ("Syracuse", "Syracuse"),
  ("Temple", "Temp."), ("Toledo", "Tol."), ("Tulane", "Tul."), ("Tulsa", "Tulsa"), ("Vanderbilt", "Vand."),
  ("Villanova", "Vill."), ("Washburn", "Washburn"), ("Widener", "Widener"), ("Willamette", "Willamette"),
  ("Yale", "Yale")]

/-- The abbreviations of common words. -/
def wordRules : Table Text := Table.ofStrings [
  ("Academy", "Acad."), ("Administration", "Admin."), ("Administrative", "Admin."), ("Advocacy", "Advoc."),
  ("Affairs", "Aff."), ("Agricultural", "Agric."), ("Agriculture", "Agric."), ("and", "&"), ("Annual", "Ann."),
  ("Appellate", "App."), ("Arbitration", "Arb."), ("Association", "Ass'n"), ("Bankruptcy", "Bankr."), ("Bar", "B."),
  ("Behavior", "Behav."), ("Behavioral", "Behav."), ("Bulletin", "Bull."), ("Business", "Bus."), ("Center", "Ctr."),
  ("Civil", "Civ."), ("College", "Coll."), ("Commercial", "Com."), ("Communication", "Commc'n"),
  ("Communications", "Commc'ns"), ("Comparative", "Compar."), ("Conflict", "Confl."), ("Constitutional", "Const."),
  ("Contemporary", "Contemp."), ("Corporate", "Corp."), ("Corporation", "Corp."), ("Criminal", "Crim."),
  ("Criminology", "Criminology"), ("Cultural", "Cultural"), ("Development", "Dev."), ("Digest", "Dig."),
  ("Dispute", "Disp."), ("Economic", "Econ."), ("Economics", "Econ."), ("Education", "Educ."), ("Employment", "Emp."),
  ("Energy", "Energy"), ("Entertainment", "Ent."), ("Environment", "Env't"), ("Environmental", "Env't"),
  ("Estate", "Est."), ("Ethics", "Ethics"), ("European", "Eur."), ("Family", "Fam."), ("Federal", "Fed."),
  ("Finance", "Fin."), ("Financial", "Fin."), ("Forum", "F."), ("Gender", "Gender"), ("Global", "Glob."),
  ("Government", "Gov't"), ("Health", "Health"), ("History", "Hist."), ("Immigration", "Immigr."),
  ("Industrial", "Indus."), ("Information", "Info."), ("Institute", "Inst."), ("Insurance", "Ins."),
  ("International", "Int'l"), ("Journal", "J."), ("Judicial", "Jud."), ("Jurisprudence", "Juris."),
  ("Justice", "Just."), ("Labor", "Lab."), ("Law", "L."), ("Lawyer", "Law."), ("Legal", "Legal"),
  ("Legislation", "Legis."), ("Legislative", "Legis."), ("Litigation", "Litig."), ("Magazine", "Mag."),
  ("Management", "Mgmt."), ("Medical", "Med."), ("Medicine", "Med."), ("National", "Nat'l"), ("Natural", "Nat."),
  ("Negotiation", "Negot."), ("Newsletter", "Newsl."), ("Perspectives", "Persps."), ("Philosophy", "Phil."),
  ("Policy", "Pol'y"), ("Political", "Pol."), ("Practice", "Prac."), ("Problems", "Probs."), ("Proceedings", "Proc."),
  ("Procedure", "Proc."), ("Professional", "Pro."), ("Property", "Prop."), ("Psychology", "Psych."),
  ("Public", "Pub."), ("Quarterly", "Q."), ("Record", "Rec."), ("Regulation", "Regul."), ("Regulatory", "Regul."),
  ("Reporter", "Rep."), ("Research", "Rsch."), ("Resolution", "Resol."), ("Resources", "Res."), ("Review", "Rev."),
  ("Rights", "Rts."), ("School", "Sch."), ("Science", "Sci."), ("Scholarship", "Scholarship"), ("Security", "Sec."),
  ("Social", "Soc."), ("Society", "Soc'y"), ("Sociology", "Socio."), ("Sports", "Sports"), ("Statistics", "Stat."),
  ("Studies", "Stud."), ("Supreme", "Sup."), ("Taxation", "Tax'n"), ("Technology", "Tech."),
  ("Transnational", "Transnat'l"), ("Transportation", "Transp."), ("Trial", "Trial"), ("University", "U."),
  ("Urban", "Urb."), ("Women's", "Women's")]

/-- The abbreviations of places. -/
def placeRules : Table Text := Table.ofStrings [
  ("Alaska", "Alaska"), ("America", "Am."), ("Atlantic", "Atl."), ("California", "Cal."), ("Colorado", "Colo."),
  ("Connecticut", "Conn."), ("Delaware", "Del."), ("Florida", "Fla."), ("Georgia", "Ga."), ("Hawaii", "Haw."),
  ("Idaho", "Idaho"), ("Illinois", "Ill."), ("Indiana", "Ind."), ("Iowa", "Iowa"), ("Kansas", "Kan."),
  ("Kentucky", "Ky."), ("Louisiana", "La."), ("Maine", "Me."), ("Maryland", "Md."), ("Massachusetts", "Mass."),
  ("Michigan", "Mich."), ("Minnesota", "Minn."), ("Mississippi", "Miss."), ("Missouri", "Mo."), ("Montana", "Mont."),
  ("Nebraska", "Neb."), ("Nevada", "Nev."), ("Northern", "N."), ("Ohio", "Ohio"), ("Oklahoma", "Okla."),
  ("Oregon", "Or."), ("Pacific", "Pac."), ("Pennsylvania", "Pa."), ("Southern", "S."), ("Southwestern", "Sw."),
  ("Tennessee", "Tenn."), ("Texas", "Tex."), ("Utah", "Utah"), ("Vermont", "Vt."), ("Virginia", "Va."),
  ("Washington", "Wash."), ("Western", "W."), ("Wisconsin", "Wis."), ("Wyoming", "Wyo.")]

/-- The words that are left out. -/
def droppedWords : List Text := ["a", "an", "at", "in", "of", "the"]

end Footcite
